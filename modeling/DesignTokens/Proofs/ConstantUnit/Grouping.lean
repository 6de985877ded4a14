import DesignTokens.Proofs.Fresh
import DesignTokens.Proofs.Outcome
import DesignTokens.Target.ConstantUnit
import Mathlib.Data.List.Induction
import Mathlib.Data.List.Perm.Basic

/-!
# Constants in classes

`classify` puts constants in classes all at once: categories in the order in which they first occur,
each with its constants in order. Inserting constants one after another does the same
(`foldl_insert`), so `group_eq_ok_iff` says which constants are grouped and how. No constant is lost
or repeated: `flatMap_classify_perm`. Constants and class names are refused by the same search for
the first one that clashes with an earlier one, `firstClash`.
-/

namespace DesignTokens

namespace Constant

/-- What must differ between two constants: the category and the name in it. -/
def key (k : Constant) : String × String :=
  (k.category, k.name)

/-- Constants clash exactly when they have the same key. -/
theorem clashes_iff {k l : Constant} : k.clashes l ↔ l.key = k.key := by
  simp only [clashes, key, Bool.and_eq_true, beq_iff_eq, Prod.mk.injEq]
  constructor
  · intro hclash
    obtain ⟨hname, hcategory⟩ := hclash
    exact ⟨hcategory.symm, hname.symm⟩
  · intro hkey
    obtain ⟨hcategory, hname⟩ := hkey
    exact ⟨hname.symm, hcategory.symm⟩

end Constant

namespace ConstantClass

/-- The categories of constants, in the order in which they first occur. -/
def categories (ks : List Constant) : List String :=
  (ks.map Constant.category).eraseDups

/-- The class of the constants of a category, in order. -/
def ofCategory (ks : List Constant) (category : String) : ConstantClass :=
  ⟨category, ks.filter fun k => k.category = category⟩

/-- The classes of constants. -/
def classify (ks : List Constant) : List ConstantClass :=
  (categories ks).map (ofCategory ks)

/-- The class with one more constant. -/
def add (c : ConstantClass) (k : Constant) : ConstantClass :=
  { c with constants := c.constants ++ [k] }

variable {ks : List Constant} {k : Constant}

theorem mem_categories {category : String} :
    category ∈ categories ks ↔ ∃ k ∈ ks, k.category = category := by
  rw [categories, List.mem_eraseDups, List.mem_map]

/-- One more constant adds its category when that is new. -/
theorem categories_append (ks : List Constant) (k : Constant) :
    categories (ks ++ [k]) =
      if k.category ∈ categories ks then categories ks else categories ks ++ [k.category] := by
  have happend : categories (ks ++ [k]) =
      categories ks ++ ([k.category].removeAll (ks.map Constant.category)).eraseDups := by
    rw [categories, List.map_append, List.eraseDups_append]
    rfl
  rw [happend]
  by_cases hmem : k.category ∈ ks.map Constant.category
  · have hcategory : k.category ∈ categories ks := List.mem_eraseDups.2 hmem
    rw [if_pos hcategory]
    simp [List.removeAll, -List.mem_map, hmem]
  · have hcategory : k.category ∉ categories ks := mt List.mem_eraseDups.1 hmem
    rw [if_neg hcategory]
    simp [List.removeAll, -List.mem_map, hmem, List.eraseDups_cons]

/-- The categories are distinct. -/
theorem nodup_categories (ks : List Constant) : (categories ks).Nodup := by
  induction ks using List.reverseRecOn with
  | nil => exact List.nodup_nil
  | append_singleton ks k ih =>
      rw [categories_append]
      split
      · exact ih
      · rename_i hnew
        exact List.nodup_append.2 ⟨ih, List.nodup_singleton _, fun a ha b hb hab =>
          hnew (List.mem_singleton.1 hb ▸ hab ▸ ha)⟩

/-- One more constant is added to the class of its category and to no other. -/
theorem ofCategory_append (ks : List Constant) (k : Constant) (category : String) :
    ofCategory (ks ++ [k]) category =
      if category = k.category then (ofCategory ks category).add k else ofCategory ks category := by
  unfold ofCategory add
  by_cases heq : category = k.category
  · simp [heq]
  · simp [heq, Ne.symm heq]

/-! ## Insertion -/

/-- A constant of a category that no class has gets a class of its own at the end. -/
theorem insert_of_new {classes : List ConstantClass}
    (hnew : ∀ c ∈ classes, c.category ≠ k.category) :
    insert classes k = classes ++ [⟨k.category, [k]⟩] := by
  induction classes with
  | nil => rfl
  | cons c rest ih =>
      rw [List.forall_mem_cons] at hnew
      rw [insert, if_neg hnew.1, ih hnew.2]
      rfl

/-- A constant of a category that a class has is added to that class. -/
theorem insert_of_mem {cs : List String} (hcs : cs.Nodup) {f : String → ConstantClass}
    (hf : ∀ category, (f category).category = category) (hmem : k.category ∈ cs) :
    insert (cs.map f) k = cs.map fun category =>
      if category = k.category then (f category).add k else f category := by
  induction cs with
  | nil => cases hmem
  | cons category rest ih =>
      obtain ⟨hcategory, hrest⟩ := List.nodup_cons.1 hcs
      rw [List.map_cons, List.map_cons, insert, hf]
      by_cases heq : category = k.category
      · -- Insertion stops here, and no later class has the category.
        rw [if_pos heq, if_pos heq]
        have hothers : ∀ other ∈ rest,
            f other = if other = k.category then (f other).add k else f other := by
          intro other hother
          have hne : other ≠ k.category := fun h => hcategory (heq.trans h.symm ▸ hother)
          rw [if_neg hne]
        rw [← List.map_congr_left hothers, add, hf]
      · rw [if_neg heq, if_neg heq]
        rw [ih hrest ((List.mem_cons.1 hmem).resolve_left fun h => heq h.symm)]

/-- Inserting one more constant gives the classes of all of them. -/
theorem insert_classify (ks : List Constant) (k : Constant) :
    insert (classify ks) k = classify (ks ++ [k]) := by
  have hmap : classify (ks ++ [k]) = (categories (ks ++ [k])).map fun category =>
      if category = k.category then (ofCategory ks category).add k else ofCategory ks category :=
    List.map_congr_left fun category _ => ofCategory_append ks k category
  rw [hmap, categories_append]
  by_cases hmem : k.category ∈ categories ks
  · rw [if_pos hmem]
    exact insert_of_mem (nodup_categories ks) (fun _ => rfl) hmem
  · have hne : ∀ category ∈ categories ks, category ≠ k.category :=
      fun category hcategory heq => hmem (heq ▸ hcategory)
    rw [if_neg hmem, List.map_append, List.map_singleton, if_pos rfl, classify, insert_of_new]
    · congr 1
      · exact List.map_congr_left fun category hcategory => (if_neg (hne category hcategory)).symm
      · have hnone : ks.filter (fun l => l.category = k.category) = [] := by
          refine List.filter_eq_nil_iff.2 fun l hl hcategory => hmem (mem_categories.2 ⟨l, hl, ?_⟩)
          exact of_decide_eq_true hcategory
        rw [ofCategory, hnone]
        rfl
    · intro c hc
      obtain ⟨category, hcategory, rfl⟩ := List.mem_map.1 hc
      exact hne category hcategory

/-- Inserting constants one after another gives the classes of all of them. -/
theorem foldl_insert (ks more : List Constant) :
    more.foldl insert (classify ks) = classify (ks ++ more) := by
  induction more generalizing ks with
  | nil => rw [List.append_nil, List.foldl_nil]
  | cons k more ih =>
      rw [List.foldl_cons, insert_classify, ih, List.append_assoc, List.singleton_append]

/-- Constants that are inserted from the start are in the classes of their categories. -/
theorem foldl_insert_nil (ks : List Constant) : ks.foldl insert [] = classify ks :=
  foldl_insert [] ks

/-- An inserted constant is added to those in classes. -/
theorem flatMap_insert_perm (classes : List ConstantClass) (k : Constant) :
    ((insert classes k).flatMap constants).Perm (classes.flatMap constants ++ [k]) := by
  induction classes with
  | nil => exact List.Perm.refl _
  | cons c rest ih =>
      rw [insert]
      split
      · simp only [List.flatMap_cons, List.append_assoc]
        exact List.Perm.append_left _ List.perm_append_comm
      · simp only [List.flatMap_cons, List.append_assoc]
        exact List.Perm.append_left _ ih

/-- The classes hold the constants, each as often as it occurs. -/
theorem flatMap_classify_perm (ks : List Constant) :
    ((classify ks).flatMap constants).Perm ks := by
  induction ks using List.reverseRecOn with
  | nil => exact List.Perm.refl _
  | append_singleton ks k ih =>
      rw [← insert_classify]
      exact (flatMap_insert_perm _ k).trans (ih.append_right [k])

/-! ## Refused constants -/

/-- The first element that clashes with an earlier one, behind that one. `earlier` holds the
elements before these. -/
def firstClash {α : Type} (clash : α → α → Bool) (earlier : List α) : List α → Option (α × α)
  | [] => none
  | a :: rest =>
    match earlier.find? (clash a) with
    | some b => some (b, a)
    | none => firstClash clash (a :: earlier) rest

section

variable {α κ : Type} {clash : α → α → Bool} {key : α → κ} {earlier front rest : List α} {a b : α}

/-- Elements that clash when they have the same key do not clash exactly when their keys are new. -/
theorem firstClash_eq_none_iff (hclash : ∀ a b, clash a b = true ↔ key b = key a) :
    firstClash clash earlier rest = none ↔ Fresh (earlier.map key) (rest.map key) := by
  induction rest generalizing earlier with
  | nil => exact iff_of_true rfl Fresh.nil
  | cons a rest ih =>
      rw [firstClash, List.map_cons, Fresh.cons_iff]
      cases hfind : earlier.find? (clash a) with
      | some b =>
          have hkey := (hclash a b).1 (List.find?_some hfind)
          refine iff_of_false (fun h => nomatch h) fun h => ?_
          exact h.1 (List.mem_map.2 ⟨b, List.mem_of_find?_eq_some hfind, hkey⟩)
      | none =>
          have hnew : key a ∉ earlier.map key := by
            intro hmem
            obtain ⟨b, hb, hkey⟩ := List.mem_map.1 hmem
            exact List.find?_eq_none.1 hfind b hb ((hclash a b).2 hkey)
          rw [← List.map_cons]
          exact ih.trans (and_iff_right hnew).symm

/-- What clashes first clashes with an element that stands before it. -/
theorem firstClash_eq_some (hearlier : ∀ c ∈ earlier, c ∈ front)
    (h : firstClash clash earlier rest = some (b, a)) :
    [b, a].Sublist (front ++ rest) ∧ clash a b = true := by
  induction rest generalizing earlier front with
  | nil => cases h
  | cons c rest ih =>
      rw [firstClash] at h
      cases hfind : earlier.find? (clash c) with
      | some d =>
          rw [hfind] at h
          cases h
          have hb := hearlier b (List.mem_of_find?_eq_some hfind)
          have hpair : [b, a].Sublist (front ++ a :: rest) :=
            (List.singleton_sublist.2 hb).append (List.singleton_sublist.2 List.mem_cons_self)
          exact ⟨hpair, List.find?_some hfind⟩
      | none =>
          rw [hfind] at h
          have hnext : ∀ d ∈ c :: earlier, d ∈ front ++ [c] := by
            intro d hd
            rw [List.mem_append, List.mem_singleton]
            exact (List.mem_cons.1 hd).symm.imp_left (hearlier d)
          have hpair := ih hnext h
          rwa [List.append_assoc, List.singleton_append] at hpair

/-- The first clash of a list is between two of its elements, in their order. -/
theorem sublist_of_firstClash (h : firstClash clash [] rest = some (b, a)) :
    [b, a].Sublist rest ∧ clash a b = true := by
  have hempty : ∀ c ∈ ([] : List α), c ∈ ([] : List α) := fun _ hmem => hmem
  exact firstClash_eq_some hempty h

end

/-- Constants are gathered by insertion, or refused for the first one that clashes. -/
theorem gather_eq (classes : List ConstantClass) (earlier rest : List Constant) :
    gather classes earlier rest =
      match firstClash Constant.clashes earlier rest with
      | some (l, k) => .error (.duplicateName k.category k.name l.path k.path)
      | none => .ok (rest.foldl insert classes) := by
  induction rest generalizing classes earlier with
  | nil => rfl
  | cons k rest ih =>
      rw [gather, firstClash]
      cases earlier.find? k.clashes with
      | some l => rfl
      | none => exact ih _ _

/-- Class names are accepted, or refused for the first one that clashes. -/
theorem checkNames_eq (owner : String) (earlier classes : List ConstantClass) :
    checkNames owner earlier classes =
      match firstClash (fun c d => d.name == c.name) earlier classes with
      | some (d, c) => .error (.duplicateName owner c.name d.category c.category)
      | none => .ok () := by
  induction classes generalizing earlier with
  | nil => rfl
  | cons c rest ih =>
      rw [checkNames, firstClash]
      cases earlier.find? fun d => d.name == c.name with
      | some d => rfl
      | none => exact ih _

/-- Constants are gathered exactly when their keys are new, and then by insertion. -/
theorem gather_eq_ok_iff (classes : List ConstantClass) (earlier rest : List Constant)
    (final : List ConstantClass) :
    gather classes earlier rest = .ok final ↔
      Fresh (earlier.map Constant.key) (rest.map Constant.key) ∧
        final = rest.foldl insert classes := by
  have hfresh : firstClash Constant.clashes earlier rest = none ↔
      Fresh (earlier.map Constant.key) (rest.map Constant.key) :=
    firstClash_eq_none_iff fun _ _ => Constant.clashes_iff
  rw [gather_eq, ← hfresh]
  cases firstClash Constant.clashes earlier rest with
  | none => simp [eq_comm]
  | some pair => simp

/-- Class names are accepted exactly when they are new. -/
theorem checkNames_eq_ok_iff (owner : String) (earlier classes : List ConstantClass) :
    checkNames owner earlier classes = .ok () ↔
      Fresh (earlier.map ConstantClass.name) (classes.map ConstantClass.name) := by
  have hfresh : firstClash (fun c d => d.name == c.name) earlier classes = none ↔
      Fresh (earlier.map ConstantClass.name) (classes.map ConstantClass.name) :=
    firstClash_eq_none_iff fun _ _ => beq_iff_eq
  rw [checkNames_eq, ← hfresh]
  cases firstClash (fun c d => d.name == c.name) earlier classes with
  | none => simp
  | some pair => simp

/-- Constants are refused exactly for the first one that clashes, and the error names both. -/
theorem gather_eq_error_iff {classes : List ConstantClass} {earlier rest : List Constant}
    {e : Error} :
    gather classes earlier rest = .error e ↔
      ∃ l k, firstClash Constant.clashes earlier rest = some (l, k) ∧
        e = .duplicateName k.category k.name l.path k.path := by
  rw [gather_eq]
  cases firstClash Constant.clashes earlier rest with
  | none => simp
  | some pair =>
      obtain ⟨b, a⟩ := pair
      simp [eq_comm]

/-- Class names are refused exactly for the first one that clashes, and the error names both
categories. -/
theorem checkNames_eq_error_iff {owner : String} {earlier classes : List ConstantClass}
    {e : Error} :
    checkNames owner earlier classes = .error e ↔
      ∃ d c, firstClash (fun c d => d.name == c.name) earlier classes = some (d, c) ∧
        e = .duplicateName owner c.name d.category c.category := by
  rw [checkNames_eq]
  cases firstClash (fun c d => d.name == c.name) earlier classes with
  | none => simp
  | some pair =>
      obtain ⟨b, a⟩ := pair
      simp [eq_comm]

/-- Constants are grouped exactly when no two of them have the same category and name, and no two
categories have the same class name. Their classes are those of their categories, or an empty class
of colors when there are none. -/
theorem group_eq_ok_iff {owner : String} {classes : List ConstantClass} :
    group owner ks = .ok classes ↔
      (ks.map Constant.key).Nodup ∧ ((classify ks).map ConstantClass.name).Nodup ∧
        classes = if (classify ks).isEmpty then [⟨colorKey, []⟩] else classify ks := by
  have hgather (final : List ConstantClass) :
      gather [] [] ks = .ok final ↔ (ks.map Constant.key).Nodup ∧ final = classify ks := by
    rw [gather_eq_ok_iff, foldl_insert_nil, List.map_nil, Fresh.nil_left_iff]
  have hnames : checkNames owner [] (classify ks) = .ok () ↔
      ((classify ks).map ConstantClass.name).Nodup :=
    (checkNames_eq_ok_iff owner [] _).trans Fresh.nil_left_iff
  rw [group, bind_eq_ok_iff]
  constructor
  · intro hgrouped
    obtain ⟨final, hgathered, h⟩ := hgrouped
    obtain ⟨hkeys, rfl⟩ := (hgather final).1 hgathered
    obtain ⟨_, hchecked, h⟩ := bind_eq_ok_iff.1 h
    cases h
    exact ⟨hkeys, hnames.1 hchecked, rfl⟩
  · intro hdistinct
    obtain ⟨hkeys, hnodup, rfl⟩ := hdistinct
    refine ⟨classify ks, (hgather _).2 ⟨hkeys, rfl⟩, ?_⟩
    exact bind_eq_ok_iff.2 ⟨(), hnames.2 hnodup, rfl⟩

end ConstantClass

end DesignTokens
