import DesignTokens.Proofs.Product
import DesignTokens.Validation.Report

/-!
# The contract of a product

A document keeps the contract of a product when its source colors and the colors of its two themes
are there, each of them conforms, and both themes name the same colors. Validation finds no error
exactly in such documents, and whatever else is wrong it finds an error at the path of a color
exactly when the color does not conform: `validate_exact`.
-/

namespace DesignTokens

/-- A report is valid exactly when none of its issues is an error. -/
theorem Report.valid_iff {report : Report} :
    report.valid = true ↔ ∀ issue ∈ report.issues, issue.severity ≠ .error := by
  rw [valid, errors, List.isEmpty_iff, List.filter_eq_nil_iff]
  simp

namespace Validation

/-! ## What the contract demands -/

/-- The themes of a product. -/
inductive Variant where
  | light
  | dark

/-- The key of a theme. -/
def Variant.key : Variant → String
  | .light => "light"
  | .dark => "dark"

/-- The colors of a product that the contract is about: those of its source and of its themes. -/
inductive Section where
  | source
  | theme (variant : Variant)

namespace Section

/-- The keys that lead from the tokens of the product to the colors. -/
def keysBelow : Section → List String
  | .source => [sourceKey, colorKey]
  | .theme variant => [themeKey, variant.key, colorKey]

/-- The keys that lead to the colors. -/
def keys (product : String) (s : Section) : List String :=
  [coreKey, product] ++ s.keysBelow

/-- The dotted path of a color. -/
def entryPath (product : String) (s : Section) (key : String) : String :=
  ".".intercalate (s.keys product ++ [key])

end Section

/-- A source color has the type of colors, and a text as its value that stands in braces or has the
form of a literal color. -/
structure ConformingSource (x : Json) : Prop where
  type : x.field? "type" = some (.str "color")
  value : ∃ text, x.field? "value" = some (.str text) ∧
    (Color.isPlaceholder text = true ∨ Color.isLiteral text = true)

/-- A theme color has a type, and a text as its value that is a reference to the product when it
stands in braces. -/
structure ConformingTheme (product : String) (x : Json) : Prop where
  type : ∃ type, x.field? "type" = some type
  value : ∃ text, x.field? "value" = some (.str text) ∧ (Color.isPlaceholder text = true →
    ∃ reference, Reference.parse? text = some reference ∧ reference.scope = productPath product)

/-- What the contract demands of a color. -/
def Section.Conforms (product : String) : Section → Json → Prop
  | .source => ConformingSource
  | .theme _ => ConformingTheme product

/-! ## Single colors -/

variable {document tokens theme colors : Fields Json} {product path key : String} {x : Json}
  {issue : Issue}

/-- The value and the type of a token entry are those of its fields. -/
theorem valueAndType?_eq_some_iff {value type : Json} :
    valueAndType? x = some (value, type) ↔
      x.field? "value" = some value ∧ x.field? "type" = some type := by
  simp only [valueAndType?, Option.bind_eq_bind, Option.bind_eq_some_iff, Option.some.injEq,
    Prod.mk.injEq]
  constructor
  · rintro ⟨_, hvalue, _, htype, rfl, rfl⟩
    exact ⟨hvalue, htype⟩
  · rintro ⟨hvalue, htype⟩
    exact ⟨value, hvalue, type, htype, rfl, rfl⟩

/-- A source color has no issues exactly when it conforms. -/
theorem sourceIssues_eq_nil_iff : sourceIssues path x = [] ↔ ConformingSource x := by
  constructor
  · intro h
    unfold sourceIssues at h
    split at h
    · cases h
    · rename_i value type hentry
      obtain ⟨hvalue, htype⟩ := valueAndType?_eq_some_iff.1 hentry
      obtain ⟨htypeIssues, hvalueIssues⟩ := List.append_eq_nil_iff.1 h
      split at htypeIssues
      · split at hvalueIssues
        · rename_i text
          refine ⟨htype, text, hvalue, ?_⟩
          by_contra hform
          rw [← Bool.or_eq_true] at hform
          rw [if_neg hform] at hvalueIssues
          cases hvalueIssues
        · cases hvalueIssues
      · cases htypeIssues
  · rintro ⟨htype, text, hvalue, hform⟩
    rw [← Bool.or_eq_true] at hform
    rw [sourceIssues, valueAndType?_eq_some_iff.2 ⟨hvalue, htype⟩]
    simp only [hform, if_true, List.append_nil]

/-- A theme color has no issues exactly when it conforms. -/
theorem themeIssues_eq_nil_iff :
    themeIssues product path x = [] ↔ ConformingTheme product x := by
  constructor
  · intro h
    unfold themeIssues at h
    split at h
    · cases h
    · rename_i text type hentry
      obtain ⟨hvalue, htype⟩ := valueAndType?_eq_some_iff.1 hentry
      refine ⟨⟨type, htype⟩, text, hvalue, fun hbraces => ?_⟩
      rw [hbraces] at h
      cases hparse : Reference.parse? text with
      | none =>
          rw [hparse] at h
          cases h
      | some reference =>
          rw [hparse] at h
          refine ⟨reference, rfl, ?_⟩
          by_contra hscope
          simp [hscope] at h
    · cases h
  · rintro ⟨⟨type, htype⟩, text, hvalue, hscope⟩
    rw [themeIssues, valueAndType?_eq_some_iff.2 ⟨hvalue, htype⟩]
    dsimp only
    cases hbraces : Color.isPlaceholder text with
    | false => rfl
    | true =>
        obtain ⟨reference, hparse, hscope⟩ := hscope hbraces
        rw [hparse]
        simp [hscope]

/-- All issues of a source color are errors at its path. -/
theorem eq_problem_of_mem_sourceIssues (h : issue ∈ sourceIssues path x) :
    issue.severity = .error ∧ issue.path = path := by
  unfold sourceIssues at h
  split at h
  · rw [List.mem_singleton.1 h]
    exact ⟨rfl, rfl⟩
  · rcases List.mem_append.1 h with h | h
    · split at h
      · cases h
      · rw [List.mem_singleton.1 h]
        exact ⟨rfl, rfl⟩
    · split at h
      · rw [List.mem_singleton.1 (List.mem_ite_nil_left.1 h).2]
        exact ⟨rfl, rfl⟩
      · rw [List.mem_singleton.1 h]
        exact ⟨rfl, rfl⟩

/-- All issues of a theme color are errors at its path. -/
theorem eq_problem_of_mem_themeIssues (h : issue ∈ themeIssues product path x) :
    issue.severity = .error ∧ issue.path = path := by
  unfold themeIssues at h
  split at h
  · rw [List.mem_singleton.1 h]
    exact ⟨rfl, rfl⟩
  · rw [List.mem_singleton.1 (List.mem_ite_nil_left.1 h).2]
    exact ⟨rfl, rfl⟩
  · rw [List.mem_singleton.1 h]
    exact ⟨rfl, rfl⟩

/-- The places below a product at which a document has to have something. -/
def structurePlaces : List String :=
  ["", ".source", ".source.color", ".theme", ".theme.light", ".theme.light.color", ".theme.dark",
    ".theme.dark.color"]

/-- The paths at which a document has to have something for a product. -/
def structurePaths (product : String) : List String :=
  "core" :: structurePlaces.map (productPath product ++ ·)

namespace Section

/-- The issues of a color. -/
def issues (product : String) (s : Section) (key : String) (x : Json) : List Issue :=
  match s with
  | .source => sourceIssues (s.entryPath product key) x
  | .theme _ => themeIssues product (s.entryPath product key) x

variable {s other : Section}

/-- A color has no issues exactly when it conforms. -/
theorem issues_eq_nil_iff : s.issues product key x = [] ↔ s.Conforms product x := by
  cases s with
  | source => exact sourceIssues_eq_nil_iff
  | theme variant => exact themeIssues_eq_nil_iff

/-- All issues of a color are errors at its path. -/
theorem eq_problem_of_mem_issues (h : issue ∈ s.issues product key x) :
    issue.severity = .error ∧ issue.path = s.entryPath product key := by
  cases s with
  | source => exact eq_problem_of_mem_sourceIssues h
  | theme variant => exact eq_problem_of_mem_themeIssues h

/-! ## Paths -/

/-- What stands between the path of the product and the key in the path of a color. -/
def infixPath : Section → String
  | .source => ".source.color."
  | .theme .light => ".theme.light.color."
  | .theme .dark => ".theme.dark.color."

theorem entryPath_eq (product : String) (s : Section) (key : String) :
    s.entryPath product key = productPath product ++ (s.infixPath ++ key) := by
  refine String.toList_inj.1 ?_
  rcases s with _ | _ | _ <;>
    simp [entryPath, keys, keysBelow, infixPath, productPath, coreKey, sourceKey, themeKey, colorKey,
      Variant.key, String.intercalate_cons_cons]

/-- The path of a color tells its section and its key. -/
theorem entryPath_inj {name : String}
    (h : s.entryPath product key = other.entryPath product name) : s = other ∧ key = name := by
  rw [entryPath_eq, entryPath_eq, String.append_right_inj, ← String.toList_inj] at h
  rcases s with _ | _ | _ <;> rcases other with _ | _ | _ <;> simp [infixPath] at h ⊢ <;>
    exact String.toList_inj.1 h

/-- No color stands at one of these paths. -/
theorem entryPath_not_mem (product : String) (s : Section) (key : String) :
    s.entryPath product key ∉ structurePaths product := by
  rw [entryPath_eq, structurePaths, List.mem_cons, List.mem_map]
  rintro (hcore | ⟨place, hplace, heq⟩)
  · have hlength := congrArg String.length hcore
    rw [productPath, String.length_append, String.length_append,
      show "core.".length = 5 from rfl, show "core".length = 4 from rfl] at hlength
    omega
  · rw [String.append_right_inj, ← String.toList_inj] at heq
    simp only [structurePlaces, List.mem_cons, List.not_mem_nil, or_false] at hplace
    rcases hplace with rfl | rfl | rfl | rfl | rfl | rfl | rfl | rfl <;>
      rcases s with _ | _ | _ <;> simp [infixPath] at heq

end Section

/-! ## Sections -/

/-- None of the issues is an error. -/
def Clean (issues : List Issue) : Prop :=
  ∀ issue ∈ issues, issue.severity ≠ .error

theorem clean_append_iff {issues others : List Issue} :
    Clean (issues ++ others) ↔ Clean issues ∧ Clean others :=
  List.forall_mem_append

theorem not_clean_problem (path message : String) : ¬ Clean [problem path message] :=
  fun h => h _ (List.mem_singleton_self _) rfl

/-- The issues of a color are no errors exactly when it conforms. -/
theorem Section.clean_issues_iff {s : Section} :
    Clean (s.issues product key x) ↔ s.Conforms product x := by
  refine Iff.trans (b := s.issues product key x = []) ?_ issues_eq_nil_iff
  constructor
  · exact fun h => List.eq_nil_iff_forall_not_mem.2 fun issue hissue =>
      h issue hissue (eq_problem_of_mem_issues hissue).1
  · intro h
    rw [h]
    exact fun _ hissue => absurd hissue List.not_mem_nil

/-- The issues of colors are no errors exactly when all of these conform. -/
theorem Section.clean_flatMap_issues_iff {s : Section} :
    Clean (colors.flatMap fun entry => s.issues product entry.1 entry.2) ↔
      ∀ entry ∈ colors, s.Conforms product entry.2 := by
  simp only [Clean, List.mem_flatMap]
  constructor
  · intro h entry hentry
    exact clean_issues_iff.1 fun issue hissue => h issue ⟨entry, hentry, hissue⟩
  · rintro h issue ⟨entry, hentry, hissue⟩
    exact clean_issues_iff.2 (h entry hentry) issue hissue

/-- The colors of a section, given the tokens of the product. -/
def Section.colors? (tokens : Fields Json) (s : Section) : Option (Fields Json) :=
  ((Json.obj tokens).at? s.keysBelow).bind Json.fields?

/-- The issues are those of a section: the issues of its colors and perhaps warnings, or an error
when there are no colors. Warnings and the error stand at paths of the structure. -/
def Section.Reported (product : String) (s : Section) :
    Option (Fields Json) → List Issue → Prop
  | some colors, issues => ∃ warnings,
      issues = (colors.flatMap fun entry => s.issues product entry.1 entry.2) ++ warnings ∧
        ∀ issue ∈ warnings, issue.severity = .warning ∧ issue.path ∈ structurePaths product
  | none, issues => ∃ path ∈ structurePaths product, ∃ message, issues = [problem path message]

namespace Section.Reported

variable {s : Section} {found : Option (Fields Json)} {issues : List Issue}

/-- The issues of a section are no errors exactly when its colors are there and conform. -/
theorem clean_iff (h : s.Reported product found issues) :
    Clean issues ↔ ∃ colors, found = some colors ∧ ∀ entry ∈ colors, s.Conforms product entry.2 := by
  cases found with
  | none =>
      obtain ⟨path, -, message, rfl⟩ := h
      exact iff_of_false (not_clean_problem path message) (by simp)
  | some colors =>
      obtain ⟨warnings, rfl, hwarnings⟩ := h
      have hclean : Clean warnings := fun issue hissue => by rw [(hwarnings issue hissue).1]; nofun
      rw [clean_append_iff, and_iff_left hclean, clean_flatMap_issues_iff]
      simp

/-- The issues of each color are among those of its section. -/
theorem mem (h : s.Reported product found issues) (hfound : found = some colors)
    {entry : String × Json} (hentry : entry ∈ colors)
    (hissue : issue ∈ s.issues product entry.1 entry.2) : issue ∈ issues := by
  subst hfound
  obtain ⟨warnings, rfl, -⟩ := h
  exact List.mem_append_left _ (List.mem_flatMap.2 ⟨entry, hentry, hissue⟩)

/-- An issue of a section is one of a color or stands at a path of the structure. -/
theorem mem_cases (h : s.Reported product found issues) (hissue : issue ∈ issues) :
    (∃ colors, found = some colors ∧
        ∃ entry ∈ colors, issue ∈ s.issues product entry.1 entry.2) ∨
      issue.path ∈ structurePaths product := by
  cases found with
  | none =>
      obtain ⟨path, hpath, message, rfl⟩ := h
      rw [List.mem_singleton.1 hissue]
      exact Or.inr hpath
  | some colors =>
      obtain ⟨warnings, rfl, hwarnings⟩ := h
      rcases List.mem_append.1 hissue with hcolor | hwarning
      · exact Or.inl ⟨colors, rfl, List.mem_flatMap.1 hcolor⟩
      · exact Or.inr (hwarnings issue hwarning).2

end Section.Reported

/-- A place below the product gives a path of the structure. -/
theorem mem_structurePaths {place : String} (hplace : place ∈ structurePlaces) :
    productPath product ++ place ∈ structurePaths product :=
  List.mem_cons_of_mem _ (List.mem_map_of_mem hplace)

/-- The issues of the source colors of a product are those of its source section. -/
theorem reported_sourceColorIssues (product : String) (colors : Fields Json) :
    Section.source.Reported product (some colors)
      (sourceColorIssues (productPath product ++ ".source.color") colors) := by
  refine ⟨_, congrArg (· ++ _) (List.flatMap_congr fun entry _ => ?_), fun issue hissue => ?_⟩
  · rw [Section.issues, Section.entryPath_eq, String.append_assoc, String.append_assoc]
    rfl
  · -- That no color is a literal is a warning.
    split at hissue
    · rw [List.mem_singleton.1 hissue]
      exact ⟨rfl, mem_structurePaths (by decide)⟩
    · cases hissue

/-- The issues of the source of a product are those of its source section. -/
theorem reported_sourceGroupIssues (product : String) (tokens : Fields Json) :
    Section.source.Reported product (Section.source.colors? tokens)
      (sourceGroupIssues product tokens) := by
  have hfound : Section.source.colors? tokens =
      ((tokens.get? "source").bind Json.fields?).bind fun source =>
        (source.get? "color").bind Json.fields? := by
    refine (Json.bind_fields?_at?_cons tokens sourceKey colorKey []).trans ?_
    simp only [Json.bind_fields?_at?_singleton]
    rfl
  have hpath : productPath product ++ ".source" ++ ".color" =
      productPath product ++ ".source.color" := by
    rw [String.append_assoc]
    rfl
  rw [hfound]
  unfold sourceGroupIssues
  cases (tokens.get? "source").bind Json.fields? with
  | none => exact ⟨_, mem_structurePaths (by decide), _, rfl⟩
  | some source =>
      dsimp only [Option.bind_some]
      rw [hpath]
      cases (source.get? "color").bind Json.fields? with
      | none => exact ⟨_, mem_structurePaths (by decide), _, rfl⟩
      | some colors => exact reported_sourceColorIssues product colors

/-- The colors of a theme are those of its section. -/
theorem variantColors?_eq (htheme : (tokens.get? themeKey).bind Json.fields? = some theme)
    (variant : Variant) :
    variantColors? theme variant.key = (Section.theme variant).colors? tokens := by
  refine Eq.symm ((Json.bind_fields?_at?_cons tokens themeKey variant.key [colorKey]).trans ?_)
  rw [htheme, Option.bind_some, Json.bind_fields?_at?_cons]
  simp only [Json.bind_fields?_at?_singleton]
  rfl

/-- Without an object of themes no theme has colors. -/
theorem colors?_theme_of_none (htheme : (tokens.get? themeKey).bind Json.fields? = none)
    (variant : Variant) : (Section.theme variant).colors? tokens = none := by
  have hbelow := Json.bind_fields?_at?_cons tokens themeKey variant.key [colorKey]
  rwa [htheme] at hbelow

/-- The issues of a theme are those of its section. -/
theorem reported_variantIssues (htheme : (tokens.get? themeKey).bind Json.fields? = some theme)
    (variant : Variant) :
    (Section.theme variant).Reported product ((Section.theme variant).colors? tokens)
      (variantIssues product theme variant.key) := by
  rw [← variantColors?_eq htheme]
  unfold variantIssues variantColors?
  cases (theme.get? variant.key).bind Json.fields? with
  | none =>
      refine ⟨_, ?_, _, rfl⟩
      rw [String.append_assoc]
      cases variant <;> exact mem_structurePaths (by decide)
  | some body =>
      dsimp only [Option.bind_eq_bind, Option.bind_some]
      cases (body.get? "color").bind Json.fields? with
      | none =>
          refine ⟨_, ?_, _, rfl⟩
          rw [String.append_assoc, String.append_assoc]
          cases variant <;> exact mem_structurePaths (by decide)
      | some colors =>
          refine ⟨[], ?_, fun _ h => absurd h List.not_mem_nil⟩
          rw [List.append_nil]
          refine List.flatMap_congr fun entry _ => ?_
          rw [Section.issues, Section.entryPath_eq]
          simp only [String.append_assoc]
          cases variant <;> rfl

/-- No name is only in one of two objects exactly when both have the same names. -/
theorem namesApart_eq_nil_iff {left right : Fields Json} :
    namesApart left right = [] ↔ ∀ name, name ∈ left.names ↔ name ∈ right.names := by
  have honly (fields others : Fields Json) :
      (fields.names.filter fun name => !others.has name) = [] ↔
        ∀ name ∈ fields.names, name ∈ others.names := by
    simp only [List.filter_eq_nil_iff, Bool.not_eq_true', Bool.not_eq_false, Fields.has_iff]
  have hsorted (names : List String) :
      (names.mergeSort fun a b => decide (a ≤ b)) = [] ↔ names = [] :=
    ⟨fun h => (h ▸ List.mergeSort_perm names _).nil_eq.symm, fun h => by rw [h, List.mergeSort_nil]⟩
  rw [namesApart, hsorted, List.append_eq_nil_iff, honly, honly]
  constructor
  · exact fun h name => ⟨h.1 name, h.2 name⟩
  · exact fun h => ⟨fun name => (h name).1, fun name => (h name).2⟩

/-- Themes whose colors are there differ in no name exactly when they name the same colors. -/
theorem clean_variantDifference_iff {light dark : Fields Json}
    (hlight : variantColors? theme "light" = some light)
    (hdark : variantColors? theme "dark" = some dark) :
    Clean (variantDifference product theme) ↔
      ∀ name, name ∈ light.names ↔ name ∈ dark.names := by
  rw [← namesApart_eq_nil_iff, variantDifference, hlight, hdark]
  dsimp only
  cases namesApart light dark with
  | nil => exact iff_of_true (fun _ h => absurd h List.not_mem_nil) rfl
  | cons name rest => exact iff_of_false (not_clean_problem _ _) nofun

/-- That the names of the themes differ is reported at a path of the structure. -/
theorem mem_structurePaths_of_variantDifference (h : issue ∈ variantDifference product theme) :
    issue.path ∈ structurePaths product := by
  unfold variantDifference at h
  generalize variantColors? theme "light" = light, variantColors? theme "dark" = dark at h
  split at h
  · split at h
    · cases h
    · rw [List.mem_singleton.1 h]
      exact mem_structurePaths (by decide)
  · cases h

/-- The issues of the themes of a product are no errors exactly when the colors of both themes are
there, conform, and have the same names. -/
theorem clean_themeGroupIssues_iff :
    Clean (themeGroupIssues product tokens) ↔
      ∃ light dark, (Section.theme .light).colors? tokens = some light ∧
        (Section.theme .dark).colors? tokens = some dark ∧
        (∀ entry ∈ light, ConformingTheme product entry.2) ∧
        (∀ entry ∈ dark, ConformingTheme product entry.2) ∧
        ∀ name, name ∈ light.names ↔ name ∈ dark.names := by
  unfold themeGroupIssues
  cases htheme : (tokens.get? "theme").bind Json.fields? with
  | none =>
      refine iff_of_false (not_clean_problem _ _) ?_
      rintro ⟨light, -, hlight, -⟩
      cases hlight.symm.trans (colors?_theme_of_none htheme .light)
  | some theme =>
      dsimp only
      have hclean (variant : Variant) :
          Clean (variantIssues product theme variant.key) ↔
            ∃ colors, (Section.theme variant).colors? tokens = some colors ∧
              ∀ entry ∈ colors, (Section.theme variant).Conforms product entry.2 :=
        (reported_variantIssues htheme variant).clean_iff
      rw [clean_append_iff, clean_append_iff]
      constructor
      · rintro ⟨⟨hlightClean, hdarkClean⟩, hnames⟩
        obtain ⟨light, hlight, hlightConforms⟩ := (hclean .light).1 hlightClean
        obtain ⟨dark, hdark, hdarkConforms⟩ := (hclean .dark).1 hdarkClean
        exact ⟨light, dark, hlight, hdark, hlightConforms, hdarkConforms,
          (clean_variantDifference_iff ((variantColors?_eq htheme .light).trans hlight)
            ((variantColors?_eq htheme .dark).trans hdark)).1 hnames⟩
      · rintro ⟨light, dark, hlight, hdark, hlightConforms, hdarkConforms, hnames⟩
        exact ⟨⟨(hclean .light).2 ⟨light, hlight, hlightConforms⟩,
            (hclean .dark).2 ⟨dark, hdark, hdarkConforms⟩⟩,
          (clean_variantDifference_iff ((variantColors?_eq htheme .light).trans hlight)
            ((variantColors?_eq htheme .dark).trans hdark)).2 hnames⟩

/-- An issue of the themes of a product is one of a theme color or stands at a path of the
structure. -/
theorem mem_themeGroupIssues_cases (h : issue ∈ themeGroupIssues product tokens) :
    (∃ variant colors, (Section.theme variant).colors? tokens = some colors ∧
        ∃ entry ∈ colors, issue ∈ (Section.theme variant).issues product entry.1 entry.2) ∨
      issue.path ∈ structurePaths product := by
  unfold themeGroupIssues at h
  cases htheme : (tokens.get? "theme").bind Json.fields? with
  | none =>
      rw [htheme] at h
      rw [List.mem_singleton.1 h]
      exact Or.inr (mem_structurePaths (by decide))
  | some theme =>
      rw [htheme] at h
      have hcases (variant : Variant) (h : issue ∈ variantIssues product theme variant.key) :
          (∃ variant colors, (Section.theme variant).colors? tokens = some colors ∧
              ∃ entry ∈ colors, issue ∈ (Section.theme variant).issues product entry.1 entry.2) ∨
            issue.path ∈ structurePaths product :=
        ((reported_variantIssues htheme variant).mem_cases h).imp_left fun hcolor =>
          ⟨variant, hcolor⟩
      rcases List.mem_append.1 h with h | h
      · rcases List.mem_append.1 h with h | h
        · exact hcases .light h
        · exact hcases .dark h
      · exact Or.inr (mem_structurePaths_of_variantDifference h)

/-- The issues of the theme colors are among those of the themes. -/
theorem mem_themeGroupIssues {variant : Variant}
    (hcolors : (Section.theme variant).colors? tokens = some colors) {entry : String × Json}
    (hentry : entry ∈ colors)
    (hissue : issue ∈ (Section.theme variant).issues product entry.1 entry.2) :
    issue ∈ themeGroupIssues product tokens := by
  unfold themeGroupIssues
  cases htheme : (tokens.get? "theme").bind Json.fields? with
  | none => cases hcolors.symm.trans (colors?_theme_of_none htheme variant)
  | some theme =>
      have hmem := (reported_variantIssues htheme variant).mem hcolors hentry hissue
      cases variant with
      | light => exact List.mem_append_left _ (List.mem_append_left _ hmem)
      | dark => exact List.mem_append_left _ (List.mem_append_right _ hmem)

/-! ## The whole document -/

/-- The colors of a section stand in the document exactly when they stand among the tokens of a
layered product. -/
theorem Section.at?_keys_iff {s : Section} :
    (Json.obj document).at? (s.keys product) = some (.obj colors) ↔
      ∃ tokens, ProductTokens.layered? document product = some tokens ∧
        s.colors? tokens = some colors := by
  rw [keys, Json.at?_append, Option.bind_eq_some_iff]
  simp only [ProductTokens.layered?_eq, colors?, Json.bind_fields?_eq_some_iff]
  constructor
  · rintro ⟨y, hy, hbelow⟩
    obtain ⟨tokens, rfl⟩ : ∃ tokens, y = .obj tokens := by
      cases s <;> exact Json.fields?_of_at?_cons hbelow
    exact ⟨tokens, hy, hbelow⟩
  · rintro ⟨tokens, htokens, hbelow⟩
    exact ⟨_, htokens, hbelow⟩

/-- The issues of a document are those of the source and the themes of a layered product, or an error
at a path of the structure when there is no such product. -/
theorem validate_cases (document : Fields Json) (product : String) :
    (∃ tokens, ProductTokens.layered? document product = some tokens ∧
        (validate document product).issues =
          sourceGroupIssues product tokens ++ themeGroupIssues product tokens) ∨
      (ProductTokens.layered? document product = none ∧ ∃ path ∈ structurePaths product,
        ∃ message, (validate document product).issues = [problem path message]) := by
  unfold validate ProductTokens.layered?
  rw [show document.get? coreKey = document.get? "core" from rfl]
  cases (document.get? "core").bind Json.fields? with
  | none => exact Or.inr ⟨rfl, "core", List.mem_cons_self, _, rfl⟩
  | some core =>
      dsimp only [Option.bind_eq_bind, Option.bind_some]
      cases (core.get? product).bind Json.fields? with
      | none =>
          refine Or.inr ⟨rfl, productPath product, ?_, _, rfl⟩
          have hpath : productPath product ++ "" ∈ structurePaths product :=
            mem_structurePaths (by decide)
          rwa [String.append_empty] at hpath
      | some tokens => exact Or.inl ⟨tokens, rfl, rfl⟩

/-- An issue of a document is one of a color or stands at a path of the structure. -/
theorem mem_issues_cases (h : issue ∈ (validate document product).issues) :
    (∃ s colors, (Json.obj document).at? (Section.keys product s) = some (.obj colors) ∧
        ∃ entry ∈ colors, issue ∈ s.issues product entry.1 entry.2) ∨
      issue.path ∈ structurePaths product := by
  rcases validate_cases document product with
    ⟨tokens, htokens, hissues⟩ | ⟨-, path, hpath, message, hissues⟩
  · have hstands {s : Section} {colors : Fields Json} (hcolors : s.colors? tokens = some colors) :=
      Section.at?_keys_iff.2 ⟨tokens, htokens, hcolors⟩
    rw [hissues] at h
    rcases List.mem_append.1 h with h | h
    · refine ((reported_sourceGroupIssues product tokens).mem_cases h).imp_left ?_
      rintro ⟨colors, hcolors, hentry⟩
      exact ⟨.source, colors, hstands hcolors, hentry⟩
    · refine (mem_themeGroupIssues_cases h).imp_left ?_
      rintro ⟨variant, colors, hcolors, hentry⟩
      exact ⟨.theme variant, colors, hstands hcolors, hentry⟩
  · rw [hissues] at h
    rw [List.mem_singleton.1 h]
    exact Or.inr hpath

/-- The issues of every color are among those of the document, whatever else is wrong. -/
theorem mem_issues_of_entry {s : Section}
    (hcolors : (Json.obj document).at? (s.keys product) = some (.obj colors))
    {entry : String × Json} (hentry : entry ∈ colors)
    (hissue : issue ∈ s.issues product entry.1 entry.2) :
    issue ∈ (validate document product).issues := by
  obtain ⟨tokens, htokens, hfound⟩ := Section.at?_keys_iff.1 hcolors
  rcases validate_cases document product with ⟨others, hothers, hissues⟩ | ⟨hnone, -⟩
  · obtain rfl : tokens = others := Option.some.inj (htokens.symm.trans hothers)
    rw [hissues]
    cases s with
    | source =>
        exact List.mem_append_left _
          ((reported_sourceGroupIssues product tokens).mem hfound hentry hissue)
    | theme variant => exact List.mem_append_right _ (mem_themeGroupIssues hfound hentry hissue)
  · cases htokens.symm.trans hnone

/-- The document has colors for every section of a product, all of them conform, and both themes name
the same colors. -/
structure Keeps (document : Fields Json) (product : String) (colors : Section → Fields Json) :
    Prop where
  present : ∀ s, (Json.obj document).at? (s.keys product) = some (.obj (colors s))
  conforming : ∀ s, ∀ entry ∈ colors s, s.Conforms product entry.2
  names : ∀ name, name ∈ (colors (.theme .light)).names ↔ name ∈ (colors (.theme .dark)).names

/-- A document is valid for a product exactly when it keeps its contract. -/
theorem valid_iff_keeps :
    (validate document product).valid = true ↔ ∃ colors, Keeps document product colors := by
  rw [Report.valid_iff]
  change Clean _ ↔ _
  rcases validate_cases document product with
    ⟨tokens, htokens, hissues⟩ | ⟨hnone, path, -, message, hissues⟩
  · rw [hissues, clean_append_iff, (reported_sourceGroupIssues product tokens).clean_iff,
      clean_themeGroupIssues_iff]
    constructor
    · rintro ⟨⟨source, hsource, hsourceConforms⟩, light, dark, hlight, hdark, hlightConforms,
        hdarkConforms, hnames⟩
      refine ⟨fun | .source => source | .theme .light => light | .theme .dark => dark, ?_, ?_, hnames⟩
      · rintro (_ | _ | _)
        · exact Section.at?_keys_iff.2 ⟨tokens, htokens, hsource⟩
        · exact Section.at?_keys_iff.2 ⟨tokens, htokens, hlight⟩
        · exact Section.at?_keys_iff.2 ⟨tokens, htokens, hdark⟩
      · rintro (_ | _ | _)
        · exact hsourceConforms
        · exact hlightConforms
        · exact hdarkConforms
    · rintro ⟨colors, hkeeps⟩
      have hfound (s : Section) : s.colors? tokens = some (colors s) := by
        obtain ⟨others, hothers, hcolors⟩ := Section.at?_keys_iff.1 (hkeeps.present s)
        obtain rfl : tokens = others := Option.some.inj (htokens.symm.trans hothers)
        exact hcolors
      exact ⟨⟨_, hfound .source, hkeeps.conforming .source⟩, _, _, hfound (.theme .light),
        hfound (.theme .dark), hkeeps.conforming (.theme .light),
        hkeeps.conforming (.theme .dark), hkeeps.names⟩
  · rw [hissues]
    refine iff_of_false (not_clean_problem path message) ?_
    rintro ⟨colors, hkeeps⟩
    obtain ⟨tokens, htokens, -⟩ := Section.at?_keys_iff.1 (hkeeps.present .source)
    cases htokens.symm.trans hnone

/-- A document is valid for a product exactly when all sections of the product have colors, all of
these conform, and both themes name the same colors. Whatever else is wrong, an error is reported at
the path of a color exactly when the color does not conform. -/
theorem validate_exact (h : (Json.obj document).WellFormed) :
    ((validate document product).valid = true ↔ ∃ colors, Keeps document product colors) ∧
      ∀ (s : Section) (colors : Fields Json),
        (Json.obj document).at? (s.keys product) = some (.obj colors) →
          ∀ key x, colors.get? key = some x →
            ((∃ issue ∈ (validate document product).errors,
                issue.path = s.entryPath product key) ↔
              ¬ s.Conforms product x) := by
  refine ⟨valid_iff_keeps, fun s colors hcolors key x hx => ?_⟩
  have hentry := Fields.mem_of_get? hx
  refine Iff.trans (b := s.issues product key x ≠ []) ?_ (not_congr Section.issues_eq_nil_iff)
  constructor
  · rintro ⟨issue, hissue, hpath⟩ hnone
    rcases mem_issues_cases (List.mem_filter.1 hissue).1 with
      ⟨other, others, hothers, entry, hmem, hown⟩ | hstructure
    · -- The path tells the color, and the color has no issues.
      obtain ⟨rfl, hkey⟩ :=
        Section.entryPath_inj (hpath.symm.trans (Section.eq_problem_of_mem_issues hown).2)
      cases hcolors.symm.trans hothers
      have hsame := ((h.of_at? hcolors).fields.get?_eq_some_iff).2 hmem
      rw [← hkey, hx] at hsame
      cases hsame
      rw [← hkey, hnone] at hown
      cases hown
    · rw [hpath] at hstructure
      exact Section.entryPath_not_mem product s key hstructure
  · intro hsome
    obtain ⟨issue, hissue⟩ := List.exists_mem_of_ne_nil _ hsome
    obtain ⟨hseverity, hpath⟩ := Section.eq_problem_of_mem_issues hissue
    refine ⟨issue, List.mem_filter.2 ⟨?_, decide_eq_true hseverity⟩, hpath⟩
    exact mem_issues_of_entry hcolors hentry hissue

/-- A product without a source, whose light theme has a color with a reference to another product and
whose dark theme is no object. The color is reported although the rest is wrong as well. -/
theorem foreign_reference_reported :
    let document : Fields Json :=
      [("core", .obj [("p", .obj [("theme", .obj
        [("light", .obj [("color", .obj
          [("c", .obj [("value", .str "\x7bcore.q.source.color.a\x7d"), ("type", .str "color")])])]),
         ("dark", .str "none")])])])]
    (Json.obj document).WellFormed ∧ (validate document "p").valid = false ∧
      ∃ issue ∈ (validate document "p").errors, issue.path = "core.p.theme.light.color.c" := by
  intro document
  have hdocument : (Json.obj document).WellFormed := by
    simp [document, Json.WellFormed, Json.FieldsWellFormed, Fields.WellFormed]
  refine ⟨hdocument, ?_, ((validate_exact hdocument).2 (.theme .light) _ rfl "c" _ rfl).2 ?_⟩
  · rw [Bool.eq_false_iff, ne_eq, (validate_exact hdocument).1]
    rintro ⟨colors, hkeeps⟩
    cases hkeeps.present .source
  · rintro ⟨-, text, hvalue, hscope⟩
    cases hvalue
    obtain ⟨reference, hparse, hhome⟩ := hscope (by decide)
    have hother : Reference.parse? "\x7bcore.q.source.color.a\x7d" =
        some ⟨"\x7bcore.q.source.color.a\x7d", "core.q", "a"⟩ := by decide
    cases hparse.symm.trans hother
    exact absurd hhome (by decide)

end Validation

end DesignTokens
