import DesignTokens.Proofs.ConstantUnit.Identifiers
import DesignTokens.Proofs.ConstantUnit.Partition
import DesignTokens.Proofs.Target.Agreement
import DesignTokens.Proofs.Tree.Leaves
import DesignTokens.Proofs.Tree.Reading

/-!
# Trees of keys in kebab case

When all keys of a tree are in kebab case its paths are, so every path is read back from its
identifier. A path with a hyphen is a category, which is one word, and a name in kebab case behind
it. Identifiers tell both apart, so constants with different paths never collide
(`not_collides_of_kebabPath`). The tree has a unit of constants as soon as its paths are different
and no token stands at the root under a single word: `kebab_keys_accepted`.
-/

namespace DesignTokens

/-! ## Paths -/

/-- A step over keys in kebab case adds a segment in kebab case. -/
theorem Step.kebabName_segment {step : Step} (h : ∀ key ∈ step.keys, KebabName key)
    (style : PathStyle) : KebabName (step.segment style) := by
  cases step with
  | child key => exact h key List.mem_cons_self
  | theme variant =>
      have hcolor : KebabName colorKey := h colorKey (by simp [keys])
      cases style with
      | collapsed => exact hcolor
      | qualified =>
          have hjoined : KebabName (themeKey ++ "-" ++ variant ++ "-" ++ colorKey) :=
            ((h themeKey (by simp [keys])).append (h variant (by simp [keys]))).append hcolor
          rwa [String.append_assoc] at hjoined

namespace Site

variable {s : Site}

/-- Below the root the path of a site is another path in kebab case, a hyphen and the key. -/
theorem exists_path_above (h : ∀ key ∈ s.keys, KebabName key) (habove : s.above ≠ [])
    (style : PathStyle) : ∃ front, KebabName front ∧ s.path style "" = front ++ "-" ++ s.key := by
  obtain ⟨above, key, t⟩ := s
  obtain ⟨step, rest, rfl⟩ := List.exists_cons_of_ne_nil habove
  have hsegment : ∀ next ∈ step :: rest, KebabName (next.segment style) := by
    intro next hnext
    refine Step.kebabName_segment (fun name hname => h name ?_) style
    exact List.mem_append_left _ (List.mem_flatMap.2 ⟨next, hnext, hname⟩)
  obtain ⟨hstep, hrest⟩ := List.forall_mem_cons.1 hsegment
  have hfront : KebabName ((rest.map (Step.segment style)).foldl joinPath (step.segment style)) :=
    hstep.foldl_joinPath (List.forall_mem_map.2 hrest)
  refine ⟨_, hfront, ?_⟩
  rw [← joinPath_of_ne hfront.ne_empty, List.foldl_map]
  rfl

/-- Keys in kebab case lead to a path in kebab case. -/
theorem kebabName_path (h : ∀ key ∈ s.keys, KebabName key) (style : PathStyle) :
    KebabName (s.path style "") := by
  have hkey : KebabName s.key := h s.key (by simp [keys])
  by_cases habove : s.above = []
  · rwa [path, habove]
  · obtain ⟨front, hfront, hpath⟩ := exists_path_above h habove style
    rw [hpath]
    exact hfront.append hkey

end Site

namespace Group

/-- Every key of the tree is in kebab case, those of theme variants included. -/
def KebabKeys (g : Group) : Prop :=
  EveryChild (fun key _ => KebabName key) g

/-- The tokens at the root of the tree stand under keys with hyphens. -/
def HyphenatedRoot (g : Group) : Prop :=
  ∀ key t, g.child? key = some (.token t) → '-' ∈ key.toList

variable {g : Group} {style : PathStyle} {e : Entry}

/-- The paths of a tree of keys in kebab case are in kebab case. -/
theorem KebabKeys.kebabName_path (hkeys : g.KebabKeys) (hg : g.WellFormed)
    (he : e ∈ g.entries style "") : KebabName e.path := by
  rw [entries_eq_map_sites] at he
  obtain ⟨s, hs, rfl⟩ := List.mem_map.1 he
  exact Site.kebabName_path (hkeys.of_site_keys hg hs) style

/-- When the tokens at its root have hyphenated keys, all paths of such a tree have hyphens. -/
theorem KebabKeys.hyphen_mem_path (hkeys : g.KebabKeys) (hg : g.WellFormed)
    (hroot : g.HyphenatedRoot) (he : e ∈ g.entries style "") : '-' ∈ e.path.toList := by
  rw [entries_eq_map_sites] at he
  obtain ⟨s, hs, rfl⟩ := List.mem_map.1 he
  by_cases habove : s.above = []
  · obtain ⟨above, key, t⟩ := s
    obtain rfl : above = [] := habove
    obtain ⟨h, hsteps, -, hchild⟩ := (mem_sites_iff hg).1 hs
    obtain rfl : g = h := Option.some.inj hsteps
    exact hroot key t hchild
  · obtain ⟨front, -, hpath⟩ :=
      Site.exists_path_above (hkeys.of_site_keys hg hs) habove style
    show '-' ∈ (s.path style "").toList
    rw [hpath, String.toList_append, String.toList_append]
    exact List.mem_append_left _ (List.mem_append_right _ (List.mem_singleton_self _))

end Group

/-! ## Constants -/

/-- The constant has a path in kebab case with a category, and the name that this path gives. -/
structure Constant.KebabPath (k : Constant) : Prop where
  kebab : KebabName k.path
  hyphen : '-' ∈ k.path.toList
  named : k.name = identifier (splitCategory k.path).2

namespace Constant.KebabPath

variable {k l : Constant}

/-- The path is the category and what the constant is named after. -/
theorem exists_rest (h : k.KebabPath) :
    ∃ rest, k.path = k.category ++ "-" ++ rest ∧ KebabName k.category ∧ KebabName rest ∧
      k.name = identifier rest := by
  obtain ⟨word, rest, hpath, hhyphen, hword, hrest⟩ := h.kebab.exists_cut h.hyphen
  have hsplit : splitCategory k.path = (word, rest) := hpath ▸ splitCategory_append hhyphen rest
  have hcategory : k.category = word := congrArg Prod.fst hsplit
  refine ⟨rest, hcategory ▸ hpath, hcategory ▸ hword, hrest, ?_⟩
  rw [h.named, hsplit]

/-- The category and the name tell the path. -/
theorem path_eq (hk : k.KebabPath) (hl : l.KebabPath) (hcategory : l.category = k.category)
    (hname : l.name = k.name) : l.path = k.path := by
  obtain ⟨rest, hkpath, -, hrest, hkname⟩ := hk.exists_rest
  obtain ⟨other, hlpath, -, hother, hlname⟩ := hl.exists_rest
  have hsame : other = rest := hother.identifier_injective hrest (by rw [← hlname, hname, hkname])
  rw [hlpath, hkpath, hcategory, hsame]

end Constant.KebabPath

/-- Constants with different paths in kebab case do not collide when these have categories. -/
theorem ConstantClass.not_collides_of_kebabPath {ks : List Constant}
    (h : ∀ k ∈ ks, k.KebabPath) (hpaths : (ks.map Constant.path).Nodup) : ¬ Collides ks := by
  rintro (⟨l, k, hsublist, hcategory, hname⟩ | ⟨l, hl, k, hk, hne, hname⟩)
  · have hl := h l (hsublist.subset List.mem_cons_self)
    have hk := h k (hsublist.subset (List.mem_cons_of_mem _ List.mem_cons_self))
    have hpair := (hsublist.map Constant.path).nodup hpaths
    simp [hk.path_eq hl hcategory hname] at hpair
  · obtain ⟨-, -, hlcategory, -⟩ := (h l hl).exists_rest
    obtain ⟨-, -, hkcategory, -⟩ := (h k hk).exists_rest
    exact hne (hlcategory.identifier_injective hkcategory hname)

namespace Group

variable {g : Group}

/-- The constants of such a tree do not collide. -/
theorem KebabKeys.not_collides (hkeys : g.KebabKeys) (hg : g.WellFormed) (hroot : g.HyphenatedRoot)
    {scope : Option Scope} {ks : List Constant} (h : (g.constants scope).result = .ok ks) :
    ¬ ConstantClass.Collides ks := by
  obtain ⟨rs, hrs, rfl⟩ := constants_eq_ok_iff.1 h
  have hpaths := (nodup_resolved_paths hrs).1
  obtain ⟨-, rfl⟩ := resolved_eq_ok hrs
  refine ConstantClass.not_collides_of_kebabPath ?_ ?_
  · rw [List.map_map, List.forall_mem_map]
    exact fun e he => ⟨hkeys.kebabName_path hg he, hkeys.hyphen_mem_path hg hroot he, rfl⟩
  · rw [List.map_map]
    exact hpaths

/-- Once its constants are known, only its moment decides whether such a tree has a unit. -/
theorem KebabKeys.exists_constantUnit_eq (hkeys : g.KebabKeys) (hg : g.WellFormed)
    (hroot : g.HyphenatedRoot) {config : UnitConfig} {ks : List Constant}
    (h : (g.constants config.scope).result = .ok ks) (generated : Moment) :
    ∃ classes, (g.constantUnit config generated).result =
      (generated.timestamp.mapError .calendar).map fun timestamp =>
        ⟨config.namespaceName, config.className, timestamp, ks, classes⟩ := by
  cases hgroup : ConstantClass.group config.className ks with
  | error e =>
      have hcollides := (ConstantClass.collision_of_group_error hgroup).collides
      exact absurd hcollides (hkeys.not_collides hg hroot h)
  | ok classes =>
      refine ⟨classes, ?_⟩
      rw [constantUnit, Outcome.andThen_result, h]
      dsimp only [Except.bind]
      rw [hgroup]
      cases generated.timestamp <;> rfl

/-- Without a scope the constants of a tree are known as soon as its walk succeeds. -/
theorem exists_constants_of_walk {es : List Entry}
    (hwalk : (g.walk .collapsed "").result = .ok es) :
    ∃ ks, (g.constants none).result = .ok ks := by
  obtain ⟨rfl, hpaths⟩ := walk_eq_ok_iff.1 hwalk
  have hmismatch : ∀ e ∈ g.entries .collapsed "", mismatch? none e.token.value = none :=
    fun _ _ => rfl
  exact ⟨_, constants_eq_ok_iff.2 ⟨_, resolved_eq_ok_iff.2 ⟨hpaths, hmismatch, rfl⟩, rfl⟩⟩

/-- The tokens of a tree are not refused for the names of their constants. -/
theorem constants_ne_duplicateName {scope : Option Scope} {category name first second : String} :
    (g.constants scope).result ≠ .error (.duplicateName category name first second) := by
  intro h
  have hresolved := Outcome.andThen_done_eq_error_iff.1 h
  obtain ⟨_, heq⟩ | ⟨_, -, _, -, _, -, heq⟩ := resolved_eq_error hresolved
  · cases heq
  · cases heq

/-- Such a tree is never refused for the names of its constants. -/
theorem KebabKeys.constantUnit_ne_duplicateName (hkeys : g.KebabKeys) (hg : g.WellFormed)
    (hroot : g.HyphenatedRoot) {config : UnitConfig} {generated : Moment}
    {category name first second : String} :
    (g.constantUnit config generated).result ≠
      .error (.duplicateName category name first second) := by
  intro h
  cases hconstants : (g.constants config.scope).result with
  | error e =>
      rw [constantUnit, Outcome.andThen_result, hconstants] at h
      exact constants_ne_duplicateName (hconstants.trans (congrArg _ (Except.error.inj h)))
  | ok ks =>
      obtain ⟨classes, hunit⟩ := hkeys.exists_constantUnit_eq hg hroot hconstants generated
      rw [hunit] at h
      cases htimestamp : generated.timestamp with
      | error fault =>
          rw [htimestamp] at h
          cases h
      | ok timestamp =>
          rw [htimestamp] at h
          cases h

end Group

/-- When all keys of a tree are in kebab case and no token stands at its root under a single word,
its constants are never refused for their names, and every path is the hyphenated name of its
identifier. So without a scope the tree has a unit as soon as its walk succeeds and the moment has
a timestamp. -/
theorem kebab_keys_accepted {g : Group} (hg : g.WellFormed) (hkeys : g.KebabKeys)
    (hroot : g.HyphenatedRoot) :
    (∀ config generated category name first second,
      (g.constantUnit config generated).result ≠
        .error (.duplicateName category name first second)) ∧
      (∀ config generated es timestamp, config.scope = none →
        (g.walk .collapsed "").result = .ok es → generated.timestamp = .ok timestamp →
          ∃ u, (g.constantUnit config generated).result = .ok u ∧ u.names = es.map Entry.path) ∧
      ∀ style, ∀ e ∈ g.entries style "", kebabCase (pascalCase e.path) = e.path := by
  refine ⟨fun config generated category name first second => ?_,
    fun config generated es timestamp hscope hwalk htimestamp => ?_, fun style e he => ?_⟩
  · exact hkeys.constantUnit_ne_duplicateName hg hroot
  · obtain ⟨ks, hks⟩ := Group.exists_constants_of_walk hwalk
    rw [← hscope] at hks
    obtain ⟨classes, hunit⟩ := hkeys.exists_constantUnit_eq hg hroot hks generated
    rw [htimestamp] at hunit
    obtain ⟨rfl, -⟩ := Group.walk_eq_ok_iff.1 hwalk
    exact ⟨_, hunit, Group.names_constantUnit hunit⟩
  · exact kebabCase_pascalCase (hkeys.kebabName_path hg he)

namespace GrayScale

/-- A color of a document. -/
def gray : Json :=
  .obj [("value", .str "#808080"), ("type", .str "color")]

/-- A document with keys of several words, with digits in words, with a theme wrapper, and with a
token at its root. -/
def document : Fields Json :=
  [("theme", .obj [("high-contrast", .obj [("color", .obj [("ink", gray)])])]),
   ("gray-scale", .obj [("s1", gray), ("s1-soft", .obj [("on-s2", gray)])]),
   ("gray", .obj [("scale2", gray)]),
   ("focus-ring", gray)]

theorem wellFormed : Group.WellFormed (Group.ofFields document) := by
  refine Group.wellFormed_ofFields ?_
  simp [document, gray, Json.WellFormed, Json.FieldsWellFormed, Fields.WellFormed]

theorem kebabKeys : Group.KebabKeys (Group.ofFields document) := by
  have hkebab : KebabName "theme" ∧ KebabName "high-contrast" ∧ KebabName "color" ∧
      KebabName "ink" ∧ KebabName "gray-scale" ∧ KebabName "s1" ∧ KebabName "s1-soft" ∧
      KebabName "on-s2" ∧ KebabName "gray" ∧ KebabName "scale2" ∧ KebabName "focus-ring" := by
    decide
  simp [document, gray, Group.KebabKeys, Group.ofFields, Node.ofJson, Token.ofFields?, Fields.get?,
    Token.valueText?, Json.str?, Group.EveryChild, Node.EveryChild, hkebab]

theorem hyphenatedRoot : Group.HyphenatedRoot (Group.ofFields document) := by
  intro key t h
  have hmem := Fields.mem_of_get? h
  have hkeys : ∀ field ∈ Group.ofFields document, field.2.kind = .token → '-' ∈ field.1.toList := by
    decide
  exact hkeys _ hmem rfl

end GrayScale

open GrayScale in
/-- That document has a unit of constants, and its paths are read back from their identifiers. -/
theorem gray_scale_accepted :
    let g : Group := Group.ofFields document
    g.WellFormed ∧ g.KebabKeys ∧ g.HyphenatedRoot ∧
      (∃ u, (g.constantUnit {} ⟨⟨2024, 1, 2⟩, 3, 4, 5, 678901, some 0⟩).result = .ok u ∧
        u.names = ["color-ink", "gray-scale-s1", "gray-scale-s1-soft-on-s2", "gray-scale2",
          "focus-ring"]) ∧
      (g.entries .qualified "").map (fun e => kebabCase (pascalCase e.path)) =
        ["theme-high-contrast-color-ink", "gray-scale-s1", "gray-scale-s1-soft-on-s2",
          "gray-scale2", "focus-ring"] := by
  intro g
  obtain ⟨-, hunit, hread⟩ := kebab_keys_accepted wellFormed kebabKeys hyphenatedRoot
  have hwalk : (g.walk .collapsed "").result = .ok (g.entries .collapsed "") :=
    Group.walk_eq_ok_iff.2 ⟨rfl, by decide +kernel⟩
  refine ⟨wellFormed, kebabKeys, hyphenatedRoot, ?_, ?_⟩
  · exact hunit {} ⟨⟨2024, 1, 2⟩, 3, 4, 5, 678901, some 0⟩ _ "2024-01-02T03:04:05.678Z" rfl hwalk
      (by decide +kernel)
  · rw [List.map_congr_left (hread .qualified)]
    rfl

end DesignTokens
