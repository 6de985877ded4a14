import DesignTokens.Build.Stage
import DesignTokens.Proofs.ConstantUnit.Partition
import DesignTokens.Proofs.Target.FlatStylesheet
import DesignTokens.Proofs.Target.UtilityTheme

/-!
# The errors of stages

A stage of a build fails when it resolves the tokens of one of the three trees, when it names the
constants of a unit, or over the moment that a unit is stamped with: `exists_tree_of_stage_error`.
Utility themes and the copy of the document never fail.
-/

namespace DesignTokens

/-- A stage of one file fails as its text does. -/
theorem Stage.single_eq_error_iff {path : Path} {text : Outcome String} {e : Error} :
    (single path text).result = .error e ↔ text.result = .error e :=
  Outcome.andThen_done_eq_error_iff

namespace ConstantClass

variable {e : Error}

/-- Constants are grouped unless names clash. -/
theorem group_eq_error {owner : String} {ks : List Constant} (h : group owner ks = .error e) :
    ∃ category name first second, e = .duplicateName category name first second := by
  cases collision_of_group_error h with
  | names l k => exact ⟨_, _, _, _, rfl⟩
  | classes l k => exact ⟨_, _, _, _, rfl⟩

end ConstantClass

namespace Group

variable {g : Group} {scope : Option Scope} {e : Error}

/-- A stylesheet fails exactly when its tokens cannot be resolved. -/
theorem stylesheet_eq_error_iff {selector : Selector} :
    (g.stylesheet selector scope).result = .error e ↔
      (g.resolved .collapsed scope).result = .error e :=
  Outcome.andThen_done_eq_error_iff.trans Outcome.andThen_done_eq_error_iff

/-- A flat stylesheet fails only when its tokens cannot be resolved, since tables refuse none. -/
theorem resolved_of_flatStylesheet_error {selector : Selector} {table : Option AliasTable}
    (h : (g.flatStylesheet selector scope table).result = .error e) :
    (g.resolved .qualified scope).result = .error e := by
  rcases Outcome.andThen_eq_error_iff.1 (Outcome.andThen_done_eq_error_iff.1 h) with
    hresolved | ⟨rs, -, hdeclare⟩
  · exact hresolved
  · rw [AliasTable.declare_result] at hdeclare
    cases hdeclare

/-- A unit of constants fails when its tokens cannot be resolved, when names clash, or when its
moment has no text. -/
theorem constantUnit_eq_error {config : UnitConfig} {generated : Moment}
    (h : (g.constantUnit config generated).result = .error e) :
    (g.resolved .collapsed config.scope).result = .error e ∨
      (∃ category name first second, e = .duplicateName category name first second) ∨
        ∃ fault, e = .calendar fault := by
  rcases Outcome.andThen_eq_error_iff.1 h with hconstants | ⟨ks, -, hbelow⟩
  · exact Or.inl (Outcome.andThen_done_eq_error_iff.1 hconstants)
  rcases Outcome.andThen_eq_error_iff.1 hbelow with hgroup | ⟨classes, -, htimestamp⟩
  · exact Or.inr (Or.inl (ConstantClass.group_eq_error hgroup))
  · replace htimestamp := Outcome.andThen_done_eq_error_iff.1 htimestamp
    replace htimestamp : generated.timestamp.mapError Error.calendar = _ := htimestamp
    cases hmoment : generated.timestamp with
    | error fault =>
        rw [hmoment] at htimestamp
        exact Or.inr (Or.inr ⟨fault, (Except.error.inj htimestamp).symm⟩)
    | ok timestamp =>
        rw [hmoment] at htimestamp
        cases htimestamp

/-- A utility theme can always be made. -/
theorem utilityTheme_ne_error (g : Group) (e : Error) : g.utilityTheme.result ≠ .error e := by
  intro h
  obtain ⟨root, hroot, -⟩ := UtilityTheme.exists_categoryRoot g
  have hfailed := Outcome.andThen_done_eq_error_iff.1 h
  rw [hroot] at hfailed
  cases hfailed

end Group

namespace BuildConfig

variable {config : BuildConfig} {g : Group} {scope : Option Scope} {name : String}
  {selector : Selector} {e : Error}

theorem resolved_of_stylesheetStage_error
    (h : (config.stylesheetStage name selector scope g).result = .error e) :
    (g.resolved .collapsed scope).result = .error e :=
  Group.stylesheet_eq_error_iff.1
    (Outcome.andThen_done_eq_error_iff.1 (Stage.single_eq_error_iff.1 h))

theorem resolved_of_flatStage_error {table : AliasTable}
    (h : (config.flatStage name selector scope table g).result = .error e) :
    (g.resolved .qualified scope).result = .error e :=
  Group.resolved_of_flatStylesheet_error
    (Outcome.andThen_done_eq_error_iff.1 (Stage.single_eq_error_iff.1 h))

theorem themeStage_ne_error (config : BuildConfig) (name : String) (g : Group) :
    (config.themeStage name g).result ≠ .error e := fun h =>
  g.utilityTheme_ne_error e (Outcome.andThen_done_eq_error_iff.1 (Stage.single_eq_error_iff.1 h))

theorem resolved_of_namesStage_error (h : (config.namesStage g).result = .error e) :
    (g.resolved .collapsed none).result = .error e := by
  have hnames : g.tokenNames.result = .error e := Outcome.andThen_done_eq_error_iff.1 h
  exact Outcome.andThen_eq_error_iff.2 (Or.inl (Outcome.andThen_done_eq_error_iff.1 hnames))

theorem constantsStage_eq_error {s : Scope} {now : Moment}
    (h : (config.constantsStage name s now g).result = .error e) :
    (g.resolved .collapsed (some s)).result = .error e ∨
      (∃ category name first second, e = .duplicateName category name first second) ∨
        ∃ fault, e = .calendar fault := by
  have hunit := Outcome.andThen_done_eq_error_iff.1 (Stage.single_eq_error_iff.1 h)
  exact Group.constantUnit_eq_error hunit

theorem documentStage_ne_error (config : BuildConfig) (document : Fields Json) :
    (config.documentStage document).result ≠ .error e := fun h =>
  nomatch Stage.single_eq_error_iff.1 h

/-- A stage of a build fails when it resolves the tokens of one of the three trees against the scope
of the product, or against none, when names of constants clash, or over its moment. -/
theorem exists_tree_of_stage_error {document : Fields Json} {now : Moment} {stage : Stage}
    (hstage : stage ∈ config.stages document now) (h : stage.result = .error e) :
    let tokens := ProductTokens.extract document config.product config.scopeId
    (∃ g ∈ [tokens.source, tokens.light, tokens.dark], ∃ scope ∈ [none, some tokens.scope],
        ∃ style, (Group.resolved style scope g).result = .error e) ∨
      (∃ category name first second, e = .duplicateName category name first second) ∨
        ∃ fault, e = .calendar fault := by
  unfold stages at hstage
  generalize ProductTokens.extract document config.product config.scopeId = tokens at hstage ⊢
  dsimp only at hstage ⊢
  simp only [List.mem_cons, List.not_mem_nil, or_false] at hstage
  rcases hstage with rfl | rfl | rfl | rfl | rfl | rfl | rfl | rfl | rfl | rfl | rfl
  · exact Or.inl ⟨tokens.source, by simp, none, by simp, _, resolved_of_stylesheetStage_error h⟩
  · exact Or.inl ⟨tokens.light, by simp, _, by simp, _, resolved_of_stylesheetStage_error h⟩
  · exact Or.inl ⟨tokens.dark, by simp, _, by simp, _, resolved_of_stylesheetStage_error h⟩
  · exact Or.inl ⟨tokens.source, by simp, _, by simp, _, resolved_of_flatStage_error h⟩
  · exact Or.inl ⟨tokens.dark, by simp, _, by simp, _, resolved_of_flatStage_error h⟩
  · exact (themeStage_ne_error _ _ _ h).elim
  · exact Or.inl ⟨tokens.source, by simp, none, by simp, _, resolved_of_namesStage_error h⟩
  · exact (constantsStage_eq_error h).imp_left fun hresolved =>
      ⟨tokens.source, by simp, _, by simp, _, hresolved⟩
  · exact (constantsStage_eq_error h).imp_left fun hresolved =>
      ⟨tokens.light, by simp, _, by simp, _, hresolved⟩
  · exact (constantsStage_eq_error h).imp_left fun hresolved =>
      ⟨tokens.dark, by simp, _, by simp, _, hresolved⟩
  · exact (documentStage_ne_error _ _ h).elim

end BuildConfig

end DesignTokens
