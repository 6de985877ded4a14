import DesignTokens.Proofs.ConstantUnit.Members
import DesignTokens.Proofs.Target.Agreement
import DesignTokens.Tree.Document

/-!
# The names that a unit declares

A unit is accepted when the constants of each class have different names, and the classes too. The
language asks for more: the class that encloses everything has methods beside the other classes, and
no member may have the name of the class that it is in. `wellNamed_iff` says which paths and class
names give a unit that follows these rules.
-/

namespace DesignTokens

/-- A class in a source file: its name and those of its members. -/
structure DeclaredClass where
  name : String
  members : List String
  deriving DecidableEq

/-- No two members of the class have the same name, and none has the name of the class. -/
structure DeclaredClass.WellNamed (c : DeclaredClass) : Prop where
  distinct : c.members.Nodup
  other : c.name ∉ c.members

instance (c : DeclaredClass) : Decidable c.WellNamed :=
  decidable_of_iff (c.members.Nodup ∧ c.name ∉ c.members)
    ⟨fun h => ⟨h.1, h.2⟩, fun h => ⟨h.distinct, h.other⟩⟩

/-- A method in a source file. -/
structure Method where
  type : String
  name : String
  parameters : String

/-- The line that a method begins with. -/
def Method.line (m : Method) : String :=
  "        public static " ++ m.type ++ " " ++ m.name ++ m.parameters

namespace ConstantClass

/-- The class of a category as the source file has it. -/
def declared (c : ConstantClass) : DeclaredClass :=
  ⟨c.name, c.constants.map Constant.name⟩

/-- The line that the class of a category begins with. -/
def line (c : ConstantClass) : String :=
  "        public static class " ++ c.name

/-- The lines of a constant are among those of its class. -/
theorem mem_memberLines {ks : List Constant} {k : Constant} (hk : k ∈ ks) {line : String}
    (hline : line ∈ k.lines) : line ∈ memberLines ks := by
  fun_induction memberLines ks with
  | case1 => cases hk
  | case2 other =>
      rw [List.mem_singleton.1 hk] at hline
      exact hline
  | case3 other rest _ ih =>
      rcases List.mem_cons.1 hk with rfl | hrest
      · exact List.mem_append_left _ hline
      · exact List.mem_append_right _ (List.mem_cons_of_mem _ (ih hrest))

end ConstantClass

namespace ConstantUnit

/-- The methods of every unit. -/
def methods : List Method :=
  [⟨"string", "GenerateCSS", "(string selector = \":root\")"⟩,
   ⟨"string?", "GetToken", "(string tokenName)"⟩,
   ⟨"string[]", "GetAllTokenNames", "()"⟩,
   ⟨"System.Collections.Generic.Dictionary<string, string>", "GetAllTokens", "()"⟩]

/-- The names of the methods of every unit. -/
def methodNames : List String :=
  methods.map Method.name

/-- The class that encloses everything. -/
def declaredOwner (u : ConstantUnit) : DeclaredClass :=
  ⟨u.className, u.classes.map ConstantClass.name ++ methodNames⟩

/-- The classes of the source file of a unit. -/
def declared (u : ConstantUnit) : List DeclaredClass :=
  u.declaredOwner :: u.classes.map ConstantClass.declared

/-- All classes of the source file of a unit are well named. -/
def WellNamed (u : ConstantUnit) : Prop :=
  ∀ c ∈ u.declared, c.WellNamed

instance (u : ConstantUnit) : Decidable u.WellNamed :=
  inferInstanceAs (Decidable (∀ c ∈ u.declared, c.WellNamed))

/-! ## Lines -/

variable {u : ConstantUnit}

/-- The source file of a unit has the lines of the enclosing class, of the methods, and of the
classes and the constants in them. -/
theorem declarations_mem_lines (u : ConstantUnit) :
    "    public static class " ++ u.className ∈ u.lines ∧ (∀ m ∈ methods, m.line ∈ u.lines) ∧
      ∀ c ∈ u.classes, c.line ∈ u.lines ∧ ∀ k ∈ c.constants, (k.member c.name).line ∈ u.lines := by
  refine ⟨?_, ?_, fun c hc => ⟨?_, fun k hk => ?_⟩⟩
  · simp [lines, header]
  · have hmethods : ∀ m ∈ methods, m.line ∈ accessors ++ tableOpening := by
      decide +kernel
    intro m hm
    -- The names stand after the lines of three methods and before those of the last.
    refine List.mem_append_left _ (List.mem_append_left _ ?_)
    rcases List.mem_append.1 (hmethods m hm) with hbefore | hafter
    · exact List.mem_append_left _ (List.mem_append_left _ (List.mem_append_right _ hbefore))
    · exact List.mem_append_right _ hafter
  · have hclass : c.line ∈ c.lines := by
      -- It stands after the empty line and the summary.
      refine List.mem_append_left _ (List.mem_append_left _ ?_)
      iterate 4 refine List.mem_cons_of_mem _ ?_
      exact List.mem_cons_self
    have hclasses := List.mem_flatMap.2 ⟨c, hc, hclass⟩
    simp only [lines, List.mem_append, hclasses, true_or, or_true]
  · have hmember : (k.member c.name).line ∈ c.lines := by
      refine List.mem_append_left _ (List.mem_append_right _ ?_)
      exact ConstantClass.mem_memberLines hk (List.mem_cons_of_mem _ List.mem_cons_self)
    have hclasses := List.mem_flatMap.2 ⟨c, hc, hmember⟩
    simp only [lines, List.mem_append, hclasses, true_or, or_true]

end ConstantUnit

namespace ConstantClass

variable {owner : String} {ks : List Constant} {classes : List ConstantClass} {c : ConstantClass}

/-- The constants of a class of accepted constants belong to its category. -/
theorem category_of_mem (h : group owner ks = .ok classes) (hc : c ∈ classes) {k : Constant}
    (hk : k ∈ c.constants) : k.category = c.category := by
  obtain ⟨-, -, rfl⟩ := group_eq_ok_iff.1 h
  split at hc
  · rw [List.mem_singleton.1 hc] at hk
    cases hk
  · obtain ⟨category, -, rfl⟩ := List.mem_map.1 hc
    exact of_decide_eq_true (List.mem_filter.1 hk).2

/-- The categories of the classes of accepted constants are those of the constants, or that of colors
when there are none. -/
theorem forall_category_iff (h : group owner ks = .ok classes) {p : String → Prop} :
    (∀ c ∈ classes, p c.category) ↔ (ks = [] → p colorKey) ∧ ∀ k ∈ ks, p k.category := by
  obtain ⟨-, -, rfl⟩ := group_eq_ok_iff.1 h
  have hclassify : (∀ c ∈ classify ks, p c.category) ↔ ∀ k ∈ ks, p k.category := by
    rw [classify, List.forall_mem_map]
    simp [ofCategory, mem_categories]
  cases ks with
  | nil => simp [classify, categories]
  | cons k rest =>
      have hne : (classify (k :: rest)).isEmpty = false := by
        rw [List.isEmpty_eq_false_iff]
        intro hnil
        simpa [hnil] using flatMap_classify_perm (k :: rest)
      rw [hne, if_neg Bool.false_ne_true, hclassify]
      exact (and_iff_right fun hnil => absurd hnil (List.cons_ne_nil k rest)).symm

/-- The class of a category of accepted constants is well named exactly when none of them has its
name. -/
theorem wellNamed_declared_iff (h : group owner ks = .ok classes) (hc : c ∈ classes) :
    c.declared.WellNamed ↔ ∀ k ∈ c.constants, k.name ≠ identifier k.category := by
  have hother : c.name ∉ c.constants.map Constant.name ↔
      ∀ k ∈ c.constants, k.name ≠ identifier k.category := by
    rw [List.mem_map, not_exists]
    refine forall_congr' fun k => ?_
    rw [not_and]
    refine forall_congr' fun hk => ?_
    rw [category_of_mem h hc hk, name]
  rw [← hother]
  exact ⟨DeclaredClass.WellNamed.other, fun hname => ⟨nodup_constant_names h hc, hname⟩⟩

/-- The classes of the categories of accepted constants are well named exactly when no constant has
the name of its class. -/
theorem forall_wellNamed_declared_iff (h : group owner ks = .ok classes) :
    (∀ c ∈ classes, c.declared.WellNamed) ↔ ∀ k ∈ ks, k.name ≠ identifier k.category := by
  have hconstants : (∀ k ∈ ks, k.name ≠ identifier k.category) ↔
      ∀ k ∈ classes.flatMap constants, k.name ≠ identifier k.category :=
    forall_congr' fun k => by rw [(flatMap_constants_perm h).mem_iff]
  rw [hconstants, List.forall_mem_flatMap]
  exact forall₂_congr fun c hc => wellNamed_declared_iff h hc

end ConstantClass

namespace ConstantUnit

variable {u : ConstantUnit} {owner : String}

/-- The enclosing class of accepted constants is well named exactly when its name is not that of a
method, and no other class has its name or that of a method. -/
theorem wellNamed_declaredOwner_iff (h : ConstantClass.group owner u.constants = .ok u.classes) :
    u.declaredOwner.WellNamed ↔
      u.className ∉ methodNames ∧ ∀ c ∈ u.classes, c.name ∉ u.className :: methodNames := by
  have hmembers : u.declaredOwner.members = u.classes.map ConstantClass.name ++ methodNames := rfl
  have hname : u.declaredOwner.name = u.className := rfl
  constructor
  · rintro ⟨hdistinct, hother⟩
    rw [hmembers, List.nodup_append] at hdistinct
    rw [hname, hmembers, List.mem_append, not_or] at hother
    refine ⟨hother.2, fun c hc hmem => ?_⟩
    have hclass := List.mem_map_of_mem (f := ConstantClass.name) hc
    rcases List.mem_cons.1 hmem with hown | hmethod
    · exact hother.1 (hown ▸ hclass)
    · exact hdistinct.2.2 _ hclass _ hmethod rfl
  · rintro ⟨hmethod, hclasses⟩
    constructor
    · rw [hmembers, List.nodup_append]
      refine ⟨ConstantClass.nodup_names h, by decide, fun name hclass other hother heq => ?_⟩
      obtain ⟨c, hc, rfl⟩ := List.mem_map.1 hclass
      exact hclasses c hc (List.mem_cons_of_mem _ (heq ▸ hother))
    · rw [hname, hmembers, List.mem_append, not_or]
      refine ⟨fun hclass => ?_, hmethod⟩
      obtain ⟨c, hc, heq⟩ := List.mem_map.1 hclass
      exact hclasses c hc (heq ▸ List.mem_cons_self)

/-- A unit is well named exactly when all of the following hold: its name is not that of a method, no
path has the name of the unit or of a method as its category, nor the name of its category as its own.
A unit without tokens has the category of colors. -/
theorem wellNamed_iff {g : Group} {config : UnitConfig} {generated : Moment}
    (h : (g.constantUnit config generated).result = .ok u) :
    u.WellNamed ↔ config.className ∉ methodNames ∧
      (g.entries .collapsed "" = [] → config.className ≠ "Color") ∧
      ∀ e ∈ g.entries .collapsed "",
        identifier (splitCategory e.path).1 ∉ config.className :: methodNames ∧
          identifier (splitCategory e.path).2 ≠ identifier (splitCategory e.path).1 := by
  obtain ⟨⟨rs, hrs, hconstants⟩, hclasses⟩ := Group.constantUnit_eq_ok h
  obtain ⟨-, rfl⟩ := Group.resolved_eq_ok hrs
  rw [List.map_map] at hconstants
  have hname : u.className = config.className := Group.className_constantUnit h
  have hcolor : identifier colorKey ∉ config.className :: methodNames ↔
      config.className ≠ "Color" := by
    rw [show identifier colorKey = "Color" by decide, List.mem_cons, not_or, ne_comm]
    exact and_iff_left (by decide)
  have hcategories : (∀ c ∈ u.classes, c.name ∉ u.className :: methodNames) ↔ _ :=
    ConstantClass.forall_category_iff hclasses
      (p := fun category => identifier category ∉ u.className :: methodNames)
  -- The constants of the unit are those of the paths, so what holds of one holds of the other.
  rw [WellNamed, declared, List.forall_mem_cons, List.forall_mem_map,
    wellNamed_declaredOwner_iff hclasses, ConstantClass.forall_wellNamed_declared_iff hclasses,
    hcategories, hname, hcolor, hconstants, List.map_eq_nil_iff, List.forall_mem_map,
    List.forall_mem_map, and_assoc, and_assoc, ← forall₂_and]
  rfl

/-- Tokens of two categories give a unit that is well named. -/
theorem two_categories_wellNamed :
    let g : Group :=
      [("color", .group [("primary", .token ⟨.str "#00cc92", .str "color", .null, []⟩)]),
       ("spacing", .group [("small", .token ⟨.str "4px", .str "dimension", .null, []⟩)])]
    ∃ u : ConstantUnit,
      (g.constantUnit {} ⟨⟨2024, 1, 2⟩, 3, 4, 5, 678901, some 0⟩).result = .ok u ∧ u.WellNamed := by
  intro g
  let primary : Constant := ⟨"color-primary", .str "#00cc92", "Primary"⟩
  let small : Constant := ⟨"spacing-small", .str "4px", "Small"⟩
  have hunit : (g.constantUnit {} ⟨⟨2024, 1, 2⟩, 3, 4, 5, 678901, some 0⟩).result =
      .ok ⟨"Ivy.Themes", "DesignSystemTokens", "2024-01-02T03:04:05.678Z", [primary, small],
        [⟨"color", [primary]⟩, ⟨"spacing", [small]⟩]⟩ := by
    decide +kernel
  exact ⟨_, hunit, (wellNamed_iff hunit).2 (by decide +kernel)⟩

/-- A document is accepted although its unit has a class with a constant of the name of the class,
and another class with the name of a method. -/
theorem accepted_unit_not_wellNamed :
    let document : Fields Json :=
      [("color", .obj [("color", .obj [("value", .str "#ffffff"), ("type", .str "color")])]),
       ("getToken", .obj [("x", .obj [("value", .str "1px"), ("type", .str "dimension")])])]
    ∃ g u, Group.ofJson (.obj document) = .ok g ∧
      (g.constantUnit {} ⟨⟨2024, 1, 2⟩, 3, 4, 5, 678901, some 0⟩).result = .ok u ∧
      ⟨"Color", ["Color"]⟩ ∈ u.declared ∧
      ⟨"DesignSystemTokens",
        ["Color", "GetToken", "GenerateCSS", "GetToken", "GetAllTokenNames", "GetAllTokens"]⟩ ∈
          u.declared ∧
      ¬ u.WellNamed := by
  intro document
  let color : Constant := ⟨"color-color", .str "#ffffff", "Color"⟩
  let x : Constant := ⟨"getToken-x", .str "1px", "X"⟩
  refine ⟨Group.ofFields document, ⟨"Ivy.Themes", "DesignSystemTokens", "2024-01-02T03:04:05.678Z",
    [color, x], [⟨"color", [color]⟩, ⟨"getToken", [x]⟩]⟩, rfl, ?_, ?_, ?_, ?_⟩
  · decide +kernel
  · decide +kernel
  · decide +kernel
  · decide +kernel

end ConstantUnit

end DesignTokens
