import DesignTokens.Proofs.Target.Agreement
import DesignTokens.Proofs.Tree.Reading
import DesignTokens.Proofs.Tree.SiteLookup
import Mathlib.Data.List.Forall2

/-!
# The order of keys

Groups that are the same up to the order of keys hold the same nodes at the same lists of keys
(`at?_of_same`). When no theme wrapper has further variants, these lists tell what a walk reaches,
so the two walks meet the same sites in some order (`sites_perm_of_same`), and whether their paths
are distinct does not depend on the order. `walk_perm_of_same` says so of walks and of stylesheets.
-/

namespace DesignTokens

namespace Node

variable {node : Node}

theorem same_token_iff {t : Token} :
    (Node.token t).same node = true ↔ ∃ u, node = .token u ∧ t.same u = true := by
  cases node <;> simp [Node.same]

theorem same_group_iff {g : Group} :
    (Node.group g).same node = true ↔ ∃ h, node = .group h ∧ g.same h = true := by
  cases node <;> simp [Node.same, Group.same]

/-- What is the same as a node is of the same kind. -/
theorem kind_eq_of_same {other : Node} (h : node.same other = true) : node.kind = other.kind := by
  cases node <;> cases other <;> simp [Node.same, kind] at h ⊢

end Node

namespace Group

variable {g h : Group}

theorem sameChildren_cons_iff {name : String} {first : Node} :
    sameChildren ((name, first) :: g) h = true ↔
      (∃ other, h.child? name = some other ∧ first.same other) ∧ sameChildren g h = true := by
  rw [sameChildren, Bool.and_eq_true, child?]
  refine and_congr_left' ?_
  cases Fields.get? h name <;> simp

theorem sameChildren_iff :
    sameChildren g h = true ↔
      ∀ key node, (key, node) ∈ g → ∃ other, h.child? key = some other ∧ node.same other := by
  induction g with
  | nil => simp [sameChildren]
  | cons field rest ih =>
      obtain ⟨name, first⟩ := field
      rw [sameChildren_cons_iff, ih]
      simp only [List.mem_cons, Prod.mk.injEq]
      constructor
      · rintro ⟨hname, hrest⟩ key node (⟨rfl, rfl⟩ | hmem)
        · exact hname
        · exact hrest key node hmem
      · intro hall
        exact ⟨hall name first (Or.inl ⟨rfl, rfl⟩), fun key node hmem =>
          hall key node (Or.inr hmem)⟩

/-- Groups are the same when they have equally many children, and every child of the one is the same
as the child of the other under its key. -/
theorem same_iff :
    g.same h = true ↔ g.length = h.length ∧
      ∀ key node, (key, node) ∈ g → ∃ other, h.child? key = some other ∧ node.same other := by
  rw [same, Node.same, Bool.and_eq_true, beq_iff_eq, sameChildren_iff]

/-- The same groups have the same keys. -/
theorem names_perm_of_same (hg : g.WellFormed) (hsame : g.same h = true) :
    (Fields.names g).Perm (Fields.names h) := by
  obtain ⟨hlength, hchildren⟩ := same_iff.1 hsame
  have hsubset : Fields.names g ⊆ Fields.names h := by
    intro key hkey
    obtain ⟨⟨name, node⟩, hmem, rfl⟩ := List.mem_map.1 hkey
    obtain ⟨other, hother, -⟩ := hchildren name node hmem
    exact Fields.mem_names_of_get? hother
  exact (Node.WellFormed.keys hg).names_perm_of_subset hlength hsubset

/-- Under every key the same groups have the same child, or both have none. -/
theorem child?_of_same (hg : g.WellFormed) (hsame : g.same h = true) (key : String) :
    Option.Rel (fun x y => x.same y = true) (g.child? key) (h.child? key) := by
  cases hchild : g.child? key with
  | none =>
      have hkey : key ∉ Fields.names h := by
        rw [← (names_perm_of_same hg hsame).mem_iff]
        exact Fields.get?_eq_none_iff.1 hchild
      rw [child?, Fields.get?_eq_none_iff.2 hkey]
      exact .none
  | some node =>
      obtain ⟨other, hother, hnode⟩ := (same_iff.1 hsame).2 key node (Fields.mem_of_get? hchild)
      rw [hother]
      exact .some hnode

end Group

/-- At every list of keys the same nodes have the same node below them, or both have none. -/
theorem Node.at?_of_same {node other : Node} (hnode : node.WellFormed)
    (hsame : node.same other = true) (keys : List String) :
    Option.Rel (fun x y => x.same y = true) (node.at? keys) (other.at? keys) := by
  induction keys generalizing node other with
  | nil =>
      rw [Node.at?_nil, Node.at?_nil]
      exact .some hsame
  | cons key keys ih =>
      have hkind := Node.kind_eq_of_same hsame
      cases node with
      | token t =>
          cases other <;> first | exact .none | cases hkind
      | raw x =>
          cases other <;> first | exact .none | cases hkind
      | group g =>
          obtain ⟨h, rfl, hgroups⟩ := Node.same_group_iff.1 hsame
          have hchild : Option.Rel (fun x y => x.same y = true) (Fields.get? g key)
              (Fields.get? h key) := Group.child?_of_same hnode hgroups key
          rw [Node.at?_group_cons, Node.at?_group_cons]
          generalize hfirst : Fields.get? g key = first at hchild ⊢
          generalize Fields.get? h key = second at hchild ⊢
          cases hchild with
          | none => exact .none
          | some hsame => exact ih (hnode.child (Fields.mem_of_get? hfirst)) hsame

namespace Group

variable {g h : Group} {keys : List String}

/-- At every list of keys the same groups have the same node, or both have none. -/
theorem at?_of_same (hg : g.WellFormed) (hsame : g.same h = true) (keys : List String) :
    Option.Rel (fun x y => x.same y = true) (g.at? keys) (h.at? keys) :=
  Node.at?_of_same hg hsame keys

/-- What stands in a group stands in the same groups. -/
theorem exists_at?_right_of_same (hg : g.WellFormed) (hsame : g.same h = true) {node : Node}
    (hat : g.at? keys = some node) : ∃ other, h.at? keys = some other ∧ node.same other = true := by
  have hrel := at?_of_same hg hsame keys
  rw [hat] at hrel
  generalize h.at? keys = second at hrel ⊢
  cases hrel with
  | some hnode => exact ⟨_, rfl, hnode⟩

/-- What stands in the other of two groups that are the same stands in the one. -/
theorem exists_at?_left_of_same (hg : g.WellFormed) (hsame : g.same h = true) {other : Node}
    (hat : h.at? keys = some other) : ∃ node, g.at? keys = some node ∧ node.same other = true := by
  have hrel := at?_of_same hg hsame keys
  rw [hat] at hrel
  generalize g.at? keys = first at hrel ⊢
  cases hrel with
  | some hnode => exact ⟨_, rfl, hnode⟩

/-- What is the same as a tree without further variants has none either. -/
theorem SingleVariants.of_same (hvariants : g.SingleVariants) (hg : g.WellFormed)
    (hsame : g.same h = true) : h.SingleVariants := by
  intro keys others hat
  obtain ⟨node, hnode, hothers⟩ := exists_at?_left_of_same hg hsame hat
  cases node with
  | token t => cases Node.kind_eq_of_same hothers
  | raw x => cases Node.kind_eq_of_same hothers
  | group variants =>
      obtain ⟨_, heq, hvariantsSame⟩ := Node.same_group_iff.1 hothers
      cases heq
      exact (same_iff.1 hvariantsSame).1 ▸ hvariants keys variants hnode

end Group

/-! ## Sites -/

/-- The sites are at the same place and hold the same token. -/
def Site.Same (s r : Site) : Prop :=
  s.place = r.place ∧ s.token.same r.token = true

/-- Among sites that cover others, some are the same as the others one by one. -/
theorem Site.exists_matching {sites others : List Site}
    (h : ∀ r ∈ others, ∃ s ∈ sites, s.Same r) :
    ∃ l, l ⊆ sites ∧ List.Forall₂ Site.Same l others := by
  induction others with
  | nil => exact ⟨[], List.nil_subset _, .nil⟩
  | cons r rest ih =>
      obtain ⟨s, hs, hsr⟩ := h r List.mem_cons_self
      obtain ⟨l, hl, hrest⟩ := ih fun q hq => h q (List.mem_cons_of_mem r hq)
      exact ⟨s :: l, List.cons_subset.2 ⟨hs, hl⟩, .cons hsr hrest⟩

/-- Sites that are the same one by one are at the same places. -/
theorem Site.map_place_eq {sites others : List Site} (h : List.Forall₂ Site.Same sites others) :
    sites.map Site.place = others.map Site.place := by
  induction h with
  | nil => rfl
  | cons hsr _ ih => rw [List.map_cons, List.map_cons, hsr.1, ih]

namespace Group

variable {g h : Group}

/-- Where the walk of a group meets a token, the walk of the same group meets the same token. -/
theorem exists_site_right_of_same (hg : g.WellFormed) (hh : h.WellFormed)
    (hvariants : g.SingleVariants) (hsame : g.same h = true) {s : Site} (hs : s ∈ g.sites) :
    ∃ r ∈ h.sites, s.Same r := by
  obtain ⟨havoids, hat⟩ := (hvariants.mem_sites_iff_at? hg).1 hs
  obtain ⟨other, hother, htoken⟩ := exists_at?_right_of_same hg hsame hat
  obtain ⟨u, rfl, htoken⟩ := Node.same_token_iff.1 htoken
  refine ⟨{ s with token := u }, ?_, rfl, htoken⟩
  exact ((hvariants.of_same hg hsame).mem_sites_iff_at? hh).2 ⟨havoids, hother⟩

/-- Where the walk of the same group meets a token, the walk of the group meets the same token. -/
theorem exists_site_left_of_same (hg : g.WellFormed) (hh : h.WellFormed)
    (hvariants : g.SingleVariants) (hsame : g.same h = true) {r : Site} (hr : r ∈ h.sites) :
    ∃ s ∈ g.sites, s.Same r := by
  obtain ⟨havoids, hat⟩ := ((hvariants.of_same hg hsame).mem_sites_iff_at? hh).1 hr
  obtain ⟨node, hnode, htoken⟩ := exists_at?_left_of_same hg hsame hat
  cases node with
  | group inner => cases Node.kind_eq_of_same htoken
  | raw x => cases Node.kind_eq_of_same htoken
  | token t =>
      obtain ⟨_, heq, htoken⟩ := Node.same_token_iff.1 htoken
      cases heq
      refine ⟨{ r with token := t }, ?_, rfl, htoken⟩
      exact (hvariants.mem_sites_iff_at? hg).2 ⟨havoids, hnode⟩

/-- The walks of the same groups meet the same sites, in some order. -/
theorem sites_perm_of_same (hg : g.WellFormed) (hh : h.WellFormed) (hvariants : g.SingleVariants)
    (hsame : g.same h = true) : ∃ l, g.sites.Perm l ∧ List.Forall₂ Site.Same l h.sites := by
  -- Every site of the second walk is matched by one of the first, and none of the first is left.
  obtain ⟨l, hl, hmatch⟩ := Site.exists_matching fun r hr =>
    exists_site_left_of_same hg hh hvariants hsame hr
  have hplaces := Site.map_place_eq hmatch
  refine ⟨l, ?_, hmatch⟩
  refine (List.perm_ext_iff_of_nodup (hg.nodup_places.of_map _) ?_).2 fun s => ⟨?_, @hl s⟩
  · exact List.Nodup.of_map Site.place (hplaces ▸ hh.nodup_places)
  · intro hs
    obtain ⟨r, hr, hplace, -⟩ := exists_site_right_of_same hg hh hvariants hsame hs
    have hmem : s.place ∈ l.map Site.place := hplaces ▸ hplace ▸ List.mem_map_of_mem hr
    obtain ⟨q, hq, heq⟩ := List.mem_map.1 hmem
    rwa [← List.inj_on_of_nodup_map hg.nodup_places (hl hq) hs heq]

end Group

/-! ## Entries -/

/-- The entries have the same path and key, and the same token. -/
structure Entry.Same (e f : Entry) : Prop where
  path : e.path = f.path
  key : e.key = f.key
  token : e.token.same f.token = true

/-- Sites that are the same have the same entries. -/
theorem Site.Same.entry {s r : Site} (h : s.Same r) (style : PathStyle) (base : String) :
    (s.entry style base).Same (r.entry style base) := by
  obtain ⟨above, key, t⟩ := s
  obtain ⟨above', key', u⟩ := r
  obtain ⟨hplace, htoken⟩ := h
  cases hplace
  exact ⟨rfl, rfl, htoken⟩

/-- Entries that are the same have the same value when it is a text. -/
theorem Entry.Same.value {e f : Entry} (h : e.Same f)
    (htext : ∃ text, e.token.value = .str text) : f.token.value = e.token.value := by
  obtain ⟨text, htext⟩ := htext
  have hvalue : e.token.value.same f.token.value = true := by
    have htoken := h.token
    simp only [Token.same, Bool.and_eq_true] at htoken
    exact htoken.1.1.1
  rw [htext] at hvalue ⊢
  cases hother : f.token.value with
  | str other =>
      rw [hother, Json.same, beq_iff_eq] at hvalue
      rw [hvalue]
  | _ =>
      rw [hother] at hvalue
      cases hvalue

/-- Entries that are the same one by one have the same paths. -/
theorem Entry.map_path_eq {es fs : List Entry} (h : List.Forall₂ Entry.Same es fs) :
    es.map Entry.path = fs.map Entry.path := by
  induction h with
  | nil => rfl
  | cons hef _ ih => rw [List.map_cons, List.map_cons, hef.path, ih]

/-- What is read from the path and the value of entries is the same for entries that are the same
one by one and have texts as values. -/
theorem Entry.map_eq_of_texts {α : Type} (f : String → Json → α) {es fs : List Entry}
    (h : List.Forall₂ Entry.Same es fs) (htexts : ∀ e ∈ es, ∃ text, e.token.value = .str text) :
    (es.map fun e => f e.path e.token.value) = fs.map fun e => f e.path e.token.value := by
  induction h with
  | nil => rfl
  | cons hef _ ih =>
      obtain ⟨htext, hrest⟩ := List.forall_mem_cons.1 htexts
      rw [List.map_cons, List.map_cons, ih hrest, hef.path, hef.value htext]

namespace Group

variable {g h : Group}

/-- The walks of the same groups derive the same entries, in some order. -/
theorem entries_perm_of_same (hg : g.WellFormed) (hh : h.WellFormed) (hvariants : g.SingleVariants)
    (hsame : g.same h = true) (style : PathStyle) (path : String) :
    ∃ l, (g.entries style path).Perm l ∧ List.Forall₂ Entry.Same l (h.entries style path) := by
  obtain ⟨l, hperm, hmatch⟩ := sites_perm_of_same hg hh hvariants hsame
  refine ⟨l.map (Site.entry style path), ?_, ?_⟩
  · rw [entries_eq_map_sites]
    exact hperm.map _
  · rw [entries_eq_map_sites, List.forall₂_map_left_iff, List.forall₂_map_right_iff]
    exact hmatch.imp fun _ _ hsr => hsr.entry style path

/-- When the values of its tokens are texts, the paths and values that the walks of the same groups
derive are the same, in some order. -/
theorem map_entries_perm_of_same {α : Type} (f : String → Json → α) (hg : g.WellFormed)
    (hh : h.WellFormed) (hvariants : g.SingleVariants) (hsame : g.same h = true)
    (htexts : ∀ s ∈ g.sites, ∃ text, s.token.value = .str text) (style : PathStyle)
    (path : String) :
    ((g.entries style path).map fun e => f e.path e.token.value).Perm
      ((h.entries style path).map fun e => f e.path e.token.value) := by
  obtain ⟨l, hperm, hmatch⟩ := entries_perm_of_same hg hh hvariants hsame style path
  rw [← Entry.map_eq_of_texts f hmatch]
  · exact hperm.map _
  · intro e he
    rw [← hperm.mem_iff, entries_eq_map_sites] at he
    obtain ⟨s, hs, rfl⟩ := List.mem_map.1 he
    exact htexts s hs

/-- A stylesheet can be made exactly when the derived paths are distinct and no token is a reference
to another scope. -/
theorem exists_stylesheet_iff {selector : Selector} {scope : Option Scope} :
    (∃ s, (g.stylesheet selector scope).result = .ok s) ↔
      ((g.entries .collapsed "").map Entry.path).Nodup ∧
        ∀ x ∈ (g.entries .collapsed "").map fun e => e.token.value, mismatch? scope x = none := by
  rw [List.forall_mem_map]
  constructor
  · intro hmade
    obtain ⟨s, hs⟩ := hmade
    obtain ⟨rs, hrs, -⟩ := stylesheet_eq_ok_iff.1 hs
    obtain ⟨hpaths, hvalues, -⟩ := resolved_eq_ok_iff.1 hrs
    exact ⟨hpaths, hvalues⟩
  · intro hboth
    obtain ⟨hpaths, hvalues⟩ := hboth
    exact ⟨_, stylesheet_eq_ok_iff.2 ⟨_, resolved_eq_ok_iff.2 ⟨hpaths, hvalues, rfl⟩, rfl⟩⟩

end Group

/-- Take two trees that are the same up to the order of keys, where no theme wrapper has further
variants. In either naming and below any path one walk succeeds exactly when the other does, and the
entries of the one are those of the other in some order. When the values of the tokens are texts,
stylesheets are made from both trees or from neither, and the one declares the same as the other in
some order. -/
theorem walk_perm_of_same {g h : Group} (hg : g.WellFormed) (hh : h.WellFormed)
    (hvariants : g.SingleVariants) (hsame : g.same h = true) (style : PathStyle) (path : String) :
    ((∃ es, (g.walk style path).result = .ok es) ↔ ∃ fs, (h.walk style path).result = .ok fs) ∧
      (∀ es fs, (g.walk style path).result = .ok es → (h.walk style path).result = .ok fs →
        ∃ l, es.Perm l ∧ List.Forall₂ Entry.Same l fs) ∧
      ((∀ s ∈ g.sites, ∃ text, s.token.value = .str text) → ∀ selector scope,
        ((∃ s, (g.stylesheet selector scope).result = .ok s) ↔
          ∃ t, (h.stylesheet selector scope).result = .ok t) ∧
        ∀ s t, (g.stylesheet selector scope).result = .ok s →
          (h.stylesheet selector scope).result = .ok t → s.declarations.Perm t.declarations) := by
  have hentries := Group.entries_perm_of_same hg hh hvariants hsame
  have hpaths (style : PathStyle) (path : String) : ((g.entries style path).map Entry.path).Nodup ↔
      ((h.entries style path).map Entry.path).Nodup := by
    obtain ⟨l, hperm, hmatch⟩ := hentries style path
    rw [(hperm.map _).nodup_iff, Entry.map_path_eq hmatch]
  refine ⟨?_, fun es fs hes hfs => ?_, fun htexts selector scope => ?_⟩
  · simp only [Group.walk_eq_ok_iff, exists_eq_left, hpaths]
  · obtain ⟨rfl, -⟩ := Group.walk_eq_ok_iff.1 hes
    obtain ⟨rfl, -⟩ := Group.walk_eq_ok_iff.1 hfs
    exact hentries style path
  · -- Both the refused references and the declarations are read from the paths and the values.
    have hread {α : Type} (f : String → Json → α) :=
      Group.map_entries_perm_of_same f hg hh hvariants hsame htexts .collapsed ""
    constructor
    · have hvalues (x : Json) := (hread fun _ value => value).mem_iff (a := x)
      simp only [Group.exists_stylesheet_iff, hpaths, hvalues]
    · intro s t hs ht
      obtain ⟨rs, hrs, rfl⟩ := Group.stylesheet_eq_ok_iff.1 hs
      obtain ⟨qs, hqs, rfl⟩ := Group.stylesheet_eq_ok_iff.1 ht
      obtain ⟨-, rfl⟩ := Group.resolved_eq_ok hrs
      obtain ⟨-, rfl⟩ := Group.resolved_eq_ok hqs
      rw [List.map_map, List.map_map]
      exact hread fun path value => (⟨path, (denoted scope value).display⟩ : Declaration)

/-! ## A tree in two orders -/

/-- The wrappers of a tree have at most one variant when no group under their key has more. -/
theorem Group.SingleVariants.of_everyChild {g : Group}
    (hg : Group.EveryChild (fun key node => key = themeKey → ∀ variants, node = .group variants →
      variants.length ≤ 1) g) : g.SingleVariants := by
  intro keys variants hat
  exact hg.of_at? hat rfl variants rfl

namespace ReorderedTree

/-- A document with a theme variant whose colors are nested, and a color with further fields. -/
def one : Fields Json :=
  [("theme", .obj [("dark", .obj [("color", .obj
      [("ink", .obj [("value", .str "#111111"), ("type", .str "color"), ("step", .int 1),
        ("alpha", .real ⟨0x3ff0000000000000⟩)]),
       ("scale", .obj [("sky", .obj [("value", .str "#336699"), ("type", .str "color")])])])])]),
   ("panel", .obj [("gap", .obj [("value", .str "4px"), ("type", .str "dimension")])])]

/-- The same document with the names of every object in another order and a number in another
notation. -/
def two : Fields Json :=
  [("panel", .obj [("gap", .obj [("type", .str "dimension"), ("value", .str "4px")])]),
   ("theme", .obj [("dark", .obj [("color", .obj
      [("scale", .obj [("sky", .obj [("type", .str "color"), ("value", .str "#336699")])]),
       ("ink", .obj [("alpha", .int 1), ("step", .int 1), ("type", .str "color"),
        ("value", .str "#111111")])])])])]

theorem wellFormed_one : Group.WellFormed (Group.ofFields one) := by
  refine Group.wellFormed_ofFields ?_
  simp [one, Json.WellFormed, Json.FieldsWellFormed, Fields.WellFormed]

theorem wellFormed_two : Group.WellFormed (Group.ofFields two) := by
  refine Group.wellFormed_ofFields ?_
  simp [two, Json.WellFormed, Json.FieldsWellFormed, Fields.WellFormed]

theorem singleVariants : Group.SingleVariants (Group.ofFields one) := by
  refine Group.SingleVariants.of_everyChild ?_
  simp [one, Group.ofFields, Node.ofJson, Token.ofFields?, Fields.get?, Token.valueText?,
    Json.str?, Group.EveryChild, Node.EveryChild, themeKey]

theorem same : Group.same (Group.ofFields one) (Group.ofFields two) = true := rfl

theorem walk_one : (Group.walk .qualified "app" (Group.ofFields one)).result =
    .ok (Group.entries .qualified "app" (Group.ofFields one)) :=
  Group.walk_eq_ok_iff.2 ⟨rfl, by decide⟩

theorem walk_two : (Group.walk .qualified "app" (Group.ofFields two)).result =
    .ok (Group.entries .qualified "app" (Group.ofFields two)) :=
  Group.walk_eq_ok_iff.2 ⟨rfl, by decide⟩

theorem stylesheet_one : (Group.stylesheet .dark none (Group.ofFields one)).result =
    .ok ⟨.dark, [⟨"color-ink", "#111111"⟩, ⟨"color-scale-sky", "#336699"⟩,
      ⟨"panel-gap", "4px"⟩]⟩ := rfl

theorem stylesheet_two : (Group.stylesheet .dark none (Group.ofFields two)).result =
    .ok ⟨.dark, [⟨"color-scale-sky", "#336699"⟩, ⟨"color-ink", "#111111"⟩,
      ⟨"panel-gap", "4px"⟩]⟩ := rfl

end ReorderedTree

open ReorderedTree in
/-- The walks and the stylesheets of that tree in its two orders. -/
theorem reordered_walk_perm :
    Group.WellFormed (Group.ofFields one) ∧ Group.WellFormed (Group.ofFields two) ∧
      Group.SingleVariants (Group.ofFields one) ∧
      Group.same (Group.ofFields one) (Group.ofFields two) = true ∧
      ∃ es fs s t, (Group.walk .qualified "app" (Group.ofFields one)).result = .ok es ∧
        (Group.walk .qualified "app" (Group.ofFields two)).result = .ok fs ∧
        (∃ l, es.Perm l ∧ List.Forall₂ Entry.Same l fs) ∧
        (Group.stylesheet .dark none (Group.ofFields one)).result = .ok s ∧
        (Group.stylesheet .dark none (Group.ofFields two)).result = .ok t ∧
        s.declarations.Perm t.declarations := by
  obtain ⟨-, hentries, hsheets⟩ := walk_perm_of_same wellFormed_one wellFormed_two singleVariants
    same .qualified "app"
  have htexts : ∀ s ∈ Group.sites (Group.ofFields one), ∃ text, s.token.value = .str text :=
    fun s hs => Group.EveryChild.of_site (P := fun t => ∃ text, t.value = .str text)
      (Group.everyChild_text_ofFields one) hs
  exact ⟨wellFormed_one, wellFormed_two, singleVariants, same, _, _, _, _, walk_one, walk_two,
    hentries _ _ walk_one walk_two, stylesheet_one, stylesheet_two,
    (hsheets htexts .dark none).2 _ _ stylesheet_one stylesheet_two⟩

end DesignTokens
