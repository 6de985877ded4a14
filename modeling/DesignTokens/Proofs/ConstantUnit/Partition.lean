import DesignTokens.Proofs.ConstantUnit.Grouping
import Mathlib.Data.List.Nodup

/-!
# What grouping keeps and what it refuses

Accepted constants are parted into classes without loss: the categories come in the order in which
they first occur, and each has its constants in order (`Partitions`). Constants are refused exactly
when two of them collide or two categories do, and the error names the two: `group_partitions`.
-/

namespace DesignTokens

/-! ## Categories of paths -/

/-- Without a hyphen there is nothing to cut at. -/
theorem cutAtHyphen_of_not_mem {cs : List Char} (h : '-' ∉ cs) : cutAtHyphen cs = none := by
  induction cs with
  | nil => rfl
  | cons c rest ih =>
      rw [List.mem_cons, not_or] at h
      rw [cutAtHyphen, if_neg (Ne.symm h.1), ih h.2]
      rfl

/-- The first hyphen is the one after characters among which there is none. -/
theorem cutAtHyphen_append {front : List Char} (h : '-' ∉ front) (rest : List Char) :
    cutAtHyphen (front ++ '-' :: rest) = some (front, rest) := by
  induction front with
  | nil => simp [cutAtHyphen]
  | cons c front ih =>
      rw [List.mem_cons, not_or] at h
      rw [List.cons_append, cutAtHyphen, if_neg (Ne.symm h.1), ih h.2]
      rfl

/-- A path is split at its first hyphen. -/
theorem splitCategory_append {segment : String} (h : '-' ∉ segment.toList) (rest : String) :
    splitCategory (segment ++ "-" ++ rest) = (segment, rest) := by
  have hchars : (segment ++ "-" ++ rest).toList = segment.toList ++ '-' :: rest.toList := by
    rw [String.toList_append, String.toList_append, List.append_assoc]
    rfl
  rw [splitCategory, hchars, cutAtHyphen_append h]
  dsimp only
  rw [String.ofList_toList, String.ofList_toList]

namespace Constant

variable {k : Constant}

/-- A path of one segment belongs to the colors. -/
theorem category_of_not_mem (h : '-' ∉ k.path.toList) : k.category = colorKey := by
  rw [category, splitCategory, cutAtHyphen_of_not_mem h]

/-- The category of any other path is its first segment. -/
theorem category_of_segment {segment rest : String} (h : '-' ∉ segment.toList)
    (hpath : k.path = segment ++ "-" ++ rest) : k.category = segment := by
  rw [category, hpath, splitCategory_append h]

end Constant

namespace ConstantClass

variable {owner : String} {ks : List Constant} {classes : List ConstantClass} {e : Error}

/-! ## Classes of categories -/

/-- The categories come in the order in which they first occur. -/
theorem pairwise_categories (ks : List Constant) :
    (categories ks).Pairwise fun c d =>
      (ks.map Constant.category).idxOf c < (ks.map Constant.category).idxOf d := by
  induction ks using List.reverseRecOn with
  | nil => exact .nil
  | append_singleton ks k ih =>
      -- One more constant moves no category, and a new category comes behind all others.
      have hold {c : String} (hc : c ∈ categories ks) :
          ((ks ++ [k]).map Constant.category).idxOf c = (ks.map Constant.category).idxOf c := by
        rw [List.map_append]
        exact List.idxOf_append_of_mem (List.mem_eraseDups.1 hc)
      have hkept : (categories ks).Pairwise fun c d =>
          ((ks ++ [k]).map Constant.category).idxOf c <
            ((ks ++ [k]).map Constant.category).idxOf d :=
        ih.imp_of_mem fun hc hd hlt => by rwa [hold hc, hold hd]
      rw [categories_append]
      split
      · exact hkept
      · rename_i hnew
        refine List.pairwise_append.2 ⟨hkept, List.pairwise_singleton _ _, fun c hc d hd => ?_⟩
        have hfirst : (ks.map Constant.category).idxOf c < (ks.map Constant.category).length :=
          List.idxOf_lt_length_of_mem (List.mem_eraseDups.1 hc)
        have hlast : ((ks ++ [k]).map Constant.category).idxOf k.category =
            (ks.map Constant.category).length := by
          rw [List.map_append, List.idxOf_append_of_notMem (mt List.mem_eraseDups.2 hnew)]
          simp
        rw [List.mem_singleton.1 hd, hold hc, hlast]
        exact hfirst

/-- The classes are those of the constants, in the order in which their categories first occur and
with the constants in order. No constant is lost or repeated, and each is in one class. -/
structure Partitions (classes : List ConstantClass) (ks : List Constant) : Prop where
  categories : ∀ category,
    (∃ c ∈ classes, c.category = category) ↔ ∃ k ∈ ks, k.category = category
  order : classes.Pairwise fun c d =>
    (ks.map Constant.category).idxOf c.category < (ks.map Constant.category).idxOf d.category
  constants : ∀ c ∈ classes, c.constants = ks.filter fun k => k.category = c.category
  lossless : (classes.flatMap ConstantClass.constants).Perm ks
  once : ∀ k ∈ ks, ∃ c, (classes.filter fun d => k ∈ d.constants) = [c]

theorem classify_eq_nil_iff : classify ks = [] ↔ ks = [] := by
  rw [classify, List.map_eq_nil_iff]
  constructor
  · intro hnone
    refine List.eq_nil_iff_forall_not_mem.2 fun k hk => ?_
    exact List.not_mem_nil (hnone ▸ mem_categories.2 ⟨k, hk, rfl⟩)
  · rintro rfl
    rfl

/-- The classes of constants part them. -/
theorem partitions_classify (ks : List Constant) : Partitions (classify ks) ks where
  categories category := by
    rw [← mem_categories]
    simp [classify, ofCategory]
  order := List.pairwise_map.2 (pairwise_categories ks)
  constants c hc := by
    obtain ⟨category, -, rfl⟩ := List.mem_map.1 hc
    rfl
  lossless := flatMap_classify_perm ks
  once k hk := by
    have hnodup : ((classify ks).map ConstantClass.category).Nodup := by
      rw [classify, List.map_map]
      exact (List.map_id (categories ks)).symm ▸ nodup_categories ks
    have hclass : ofCategory ks k.category ∈ classify ks :=
      List.mem_map_of_mem (mem_categories.2 ⟨k, hk, rfl⟩)
    refine ⟨ofCategory ks k.category, ?_⟩
    rw [← filter_eq_singleton hnodup hclass]
    refine List.filter_congr fun c hc => ?_
    obtain ⟨category, -, rfl⟩ := List.mem_map.1 hc
    simp [ofCategory, hk, eq_comm]

/-! ## Collisions -/

/-- Two constants at different positions have the same category and name, or two categories give the
same identifier. -/
def Collides (ks : List Constant) : Prop :=
  (∃ l k, [l, k].Sublist ks ∧ l.category = k.category ∧ l.name = k.name) ∨
    ∃ l ∈ ks, ∃ k ∈ ks, l.category ≠ k.category ∧ identifier l.category = identifier k.category

/-- The error names two constants that collide, or two categories, the earlier one first. -/
inductive Collision (owner : String) (ks : List Constant) : Error → Prop where
  | names (l k : Constant) : [l, k].Sublist ks → l.category = k.category → l.name = k.name →
      Collision owner ks (.duplicateName k.category k.name l.path k.path)
  | classes (l k : Constant) : l ∈ ks → k ∈ ks →
      (ks.map Constant.category).idxOf l.category < (ks.map Constant.category).idxOf k.category →
      identifier l.category = identifier k.category →
      Collision owner ks (.duplicateName owner (identifier k.category) l.category k.category)

/-- An error that names a collision is about constants that collide. -/
theorem Collision.collides (h : Collision owner ks e) : Collides ks := by
  cases h with
  | names l k hsublist hcategory hname => exact Or.inl ⟨l, k, hsublist, hcategory, hname⟩
  | classes l k hl hk hlt hname =>
      have hne : l.category ≠ k.category := by
        intro heq
        rw [heq] at hlt
        exact Nat.lt_irrefl _ hlt
      exact Or.inr ⟨l, hl, k, hk, hne, hname⟩

/-- Two classes of which the one comes before the other have constants with these categories. -/
theorem exists_constants_of_sublist {d c : ConstantClass} (h : [d, c].Sublist (classify ks)) :
    ∃ l ∈ ks, ∃ k ∈ ks, l.category = d.category ∧ k.category = c.category ∧
      (ks.map Constant.category).idxOf l.category <
        (ks.map Constant.category).idxOf k.category := by
  have hpartitions := partitions_classify ks
  obtain ⟨l, hl, hld⟩ := (hpartitions.categories d.category).1
    ⟨d, h.subset List.mem_cons_self, rfl⟩
  obtain ⟨k, hk, hkc⟩ := (hpartitions.categories c.category).1
    ⟨c, h.subset (List.mem_cons_of_mem _ List.mem_cons_self), rfl⟩
  have hlt := List.pairwise_iff_forall_sublist.1 hpartitions.order h
  rw [← hld, ← hkc] at hlt
  exact ⟨l, hl, k, hk, hld, hkc, hlt⟩

/-- Grouping fails over a collision only, and its error names it. -/
theorem collision_of_group_error (h : group owner ks = .error e) : Collision owner ks e := by
  rcases bind_eq_error_iff.1 h with hgather | ⟨final, hgathered, hbelow⟩
  · obtain ⟨l, k, hclash, rfl⟩ := gather_eq_error_iff.1 hgather
    obtain ⟨hsublist, hkey⟩ := sublist_of_firstClash hclash
    obtain ⟨hcategory, hname⟩ := Prod.mk.inj (Constant.clashes_iff.1 hkey)
    exact .names l k hsublist hcategory hname
  · obtain ⟨-, rfl⟩ := (gather_eq_ok_iff [] [] ks final).1 hgathered
    rw [foldl_insert_nil] at hbelow
    rcases bind_eq_error_iff.1 hbelow with hnames | ⟨_, -, hend⟩
    · obtain ⟨d, c, hclash, rfl⟩ := checkNames_eq_error_iff.1 hnames
      obtain ⟨hsublist, hname⟩ := sublist_of_firstClash hclash
      obtain ⟨l, hl, k, hk, hld, hkc, hlt⟩ := exists_constants_of_sublist hsublist
      have hidentifiers : identifier l.category = identifier k.category := by
        rw [hld, hkc]
        exact beq_iff_eq.1 hname
      rw [ConstantClass.name, ← hld, ← hkc]
      exact .classes l k hl hk hlt hidentifiers
    · cases hend

/-- Constants that collide are not grouped. -/
theorem not_collides_of_group_ok (h : group owner ks = .ok classes) : ¬ Collides ks := by
  obtain ⟨hkeys, hnames, -⟩ := group_eq_ok_iff.1 h
  rintro (⟨l, k, hsublist, hcategory, hname⟩ | ⟨l, hl, k, hk, hne, hname⟩)
  · have hpair := (hsublist.map Constant.key).nodup hkeys
    have hkey : l.key = k.key := Prod.ext hcategory hname
    simp [hkey] at hpair
  · rw [classify, List.map_map] at hnames
    refine hne (List.inj_on_of_nodup_map hnames ?_ ?_ hname)
    · exact mem_categories.2 ⟨l, hl, rfl⟩
    · exact mem_categories.2 ⟨k, hk, rfl⟩

/-- Grouping fails exactly when constants collide: two at different positions have the same category
and name, or two categories give the same identifier. The error names two that collide. Otherwise
the classes part the constants, with their categories in the order in which they first occur and
each with its constants in order; no constants at all give one empty class of colors. The category
of a path is what stands before its first hyphen, and that of the colors when it has none. -/
theorem group_partitions (owner : String) (ks : List Constant) :
    ((∃ e, group owner ks = .error e) ↔ Collides ks) ∧
      (∀ e, group owner ks = .error e → Collision owner ks e) ∧
      (∀ classes, group owner ks = .ok classes → ks ≠ [] → Partitions classes ks) ∧
      group owner [] = .ok [⟨"color", []⟩] ∧
      ∀ k : Constant, ('-' ∉ k.path.toList → k.category = "color") ∧
        ∀ segment rest : String, '-' ∉ segment.toList → k.path = segment ++ "-" ++ rest →
          k.category = segment := by
  refine ⟨⟨?_, fun hcollides => ?_⟩, fun e he => collision_of_group_error he,
    fun classes hclasses hne => ?_, rfl, fun k => ⟨?_, ?_⟩⟩
  · rintro ⟨e, he⟩
    exact (collision_of_group_error he).collides
  · cases hgroup : group owner ks with
    | error e => exact ⟨e, rfl⟩
    | ok classes => exact absurd hcollides (not_collides_of_group_ok hgroup)
  · obtain ⟨-, -, rfl⟩ := group_eq_ok_iff.1 hclasses
    rw [if_neg fun hempty => hne (classify_eq_nil_iff.1 (List.isEmpty_iff.1 hempty))]
    exact partitions_classify ks
  · exact fun h => Constant.category_of_not_mem h
  · exact fun segment rest h hpath => Constant.category_of_segment h hpath

/-- Two colors with a length between them, the second one with a path of one segment. -/
def interleaved : List Constant :=
  [⟨"color-ink", .str "#111111", "Ink"⟩, ⟨"spacing-ink", .str "4px", "Ink"⟩,
    ⟨"brand", .str "#00cc92", "Brand"⟩]

theorem group_interleaved : group "Tokens" interleaved =
    .ok [⟨"color", [⟨"color-ink", .str "#111111", "Ink"⟩, ⟨"brand", .str "#00cc92", "Brand"⟩]⟩,
      ⟨"spacing", [⟨"spacing-ink", .str "4px", "Ink"⟩]⟩] := by
  decide +kernel

/-- These constants are parted into the colors and the lengths. -/
theorem interleaved_partitioned :
    ∃ classes, group "Tokens" interleaved = .ok classes ∧ interleaved ≠ [] ∧
      classes.map ConstantClass.category = ["color", "spacing"] ∧
      Partitions classes interleaved :=
  ⟨_, group_interleaved, nofun, rfl,
    (group_partitions "Tokens" interleaved).2.2.1 _ group_interleaved nofun⟩

end ConstantClass

end DesignTokens
