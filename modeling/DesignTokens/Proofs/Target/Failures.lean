import DesignTokens.Proofs.Build.StageErrors

/-!
# When emission fails

Stylesheets, flat stylesheets and units of constants resolve the tokens of a tree before they do
anything else, so they fail alike: over the first path that is derived again, and only when paths
are distinct over the first reference that the scope refuses. Aliases cannot fail, and a unit comes
to its own errors only when there is nothing to refuse: `emission_fails_in_order`.
-/

namespace DesignTokens

/-- How the emission of entries ends that are resolved against a scope. A path that is derived again
comes first, then a reference that the scope refuses, and then the errors of the output's own. -/
structure FailsInOrder {α : Type} (scope : Option Scope) (es : List Entry) (own : Error → Prop)
    (result : Except Error α) : Prop where
  repeats : (∃ path, result = .error (.duplicatePath path)) ↔ ¬ (es.map Entry.path).Nodup
  repeated : ∀ path, result = .error (.duplicatePath path) ↔
    FirstRepeated (es.map Entry.path) path
  refuses : (∃ raw expected actual, result = .error (.scopeMismatch raw expected actual)) ↔
    (es.map Entry.path).Nodup ∧ ¬ NoneForeign scope es
  refused : ∀ raw expected actual, result = .error (.scopeMismatch raw expected actual) ↔
    (es.map Entry.path).Nodup ∧ ∃ s ∈ scope, ∃ reference, FirstForeign s es reference ∧
      raw = reference.raw ∧ expected = s.id ∧ actual = reference.scope
  otherwise : ((∃ a, result = .ok a) ∨ ∃ e, own e ∧ result = .error e) ↔
    (es.map Entry.path).Nodup ∧ NoneForeign scope es

/-- The error is one that only a unit of constants meets: names that clash, or a moment without a
text. -/
def Error.OfUnit : Error → Prop
  | .duplicateName .. => True
  | .calendar _ => True
  | _ => False

namespace Group

variable {g : Group} {scope : Option Scope}

/-- An output that fails as the resolution of its tokens does, and else with errors of its own only,
fails in order. -/
theorem failsInOrder_of_resolved {α : Type} {style : PathStyle} {own : Error → Prop}
    {result : Except Error α}
    (hkept : ∀ e, (g.resolved style scope).result = .error e → result = .error e)
    (hnew : ∀ e, result = .error e → (g.resolved style scope).result = .error e ∨ own e)
    (hpath : ∀ path, ¬ own (.duplicatePath path))
    (hscope : ∀ raw expected actual, ¬ own (.scopeMismatch raw expected actual)) :
    FailsInOrder scope (g.entries style "") own result := by
  have hsame {e : Error} (he : ¬ own e) :
      result = .error e ↔ (g.resolved style scope).result = .error e :=
    ⟨fun h => (hnew e h).resolve_right he, hkept e⟩
  have hrepeated (path : String) : result = .error (.duplicatePath path) ↔
      FirstRepeated ((g.entries style "").map Entry.path) path := by
    simp [hsame (hpath path), resolved_eq_error_iff]
  have hrefused (raw expected actual : String) :
      result = .error (.scopeMismatch raw expected actual) ↔
        ((g.entries style "").map Entry.path).Nodup ∧
          ∃ s ∈ scope, ∃ reference, FirstForeign s (g.entries style "") reference ∧
            raw = reference.raw ∧ expected = s.id ∧ actual = reference.scope := by
    simp [hsame (hscope raw expected actual), resolved_eq_error_iff]
  refine ⟨?_, hrepeated, ?_, hrefused, ?_⟩
  · simp only [hrepeated, exists_firstRepeated_iff]
  · simp only [← exists_firstForeign_iff, hrefused]
    constructor
    · rintro ⟨-, -, -, hpaths, s, hs, reference, hfirst, -⟩
      exact ⟨hpaths, s, hs, reference, hfirst⟩
    · rintro ⟨hpaths, s, hs, reference, hfirst⟩
      exact ⟨_, _, _, hpaths, s, hs, reference, hfirst, rfl, rfl, rfl⟩
  · rw [← exists_resolved_iff]
    cases hresolved : (g.resolved style scope).result with
    | ok rs =>
        refine iff_of_true ?_ ⟨rs, rfl⟩
        cases result with
        | ok a => exact Or.inl ⟨a, rfl⟩
        | error e =>
            refine Or.inr ⟨e, (hnew e rfl).resolve_left ?_, rfl⟩
            rw [hresolved]
            nofun
    | error e =>
        -- The output fails with this error, which is none of its own.
        have hresult := hkept e hresolved
        refine iff_of_false ?_ nofun
        rintro (⟨a, ha⟩ | ⟨_, hown, he⟩)
        · cases hresult.symm.trans ha
        · cases hresult.symm.trans he
          obtain ⟨path, -, rfl⟩ | ⟨-, s, -, reference, -, rfl⟩ :=
            resolved_eq_error_iff.1 hresolved
          · exact hpath _ hown
          · exact hscope _ _ _ hown

/-- A flat stylesheet fails as the resolution of its tokens does, whatever its table leaves out. -/
theorem flatStylesheet_of_resolved_error {selector : Selector} {table : Option AliasTable}
    {e : Error} (h : (g.resolved .qualified scope).result = .error e) :
    (g.flatStylesheet selector scope table).result = .error e :=
  Outcome.andThen_done_eq_error_iff.2 (Outcome.andThen_eq_error_iff.2 (Or.inl h))

/-- A unit of constants fails as the resolution of its tokens does. -/
theorem constantUnit_of_resolved_error {config : UnitConfig} {generated : Moment} {e : Error}
    (h : (g.resolved .collapsed config.scope).result = .error e) :
    (g.constantUnit config generated).result = .error e :=
  Outcome.andThen_eq_error_iff.2 (Or.inl (Outcome.andThen_done_eq_error_iff.2 h))

end Group

/-- The emission of a stylesheet fails with the first collapsed path that is derived again. When
there is none, it fails with the first token value that is a reference to another scope than the
given one, unless this one accepts all references. Otherwise it succeeds. For a flat stylesheet the
paths are the qualified ones, and its table does not matter. A unit of constants fails over its
names or its moment only when it would not fail otherwise. -/
theorem emission_fails_in_order (g : Group) :
    (∀ scope selector, FailsInOrder scope (g.entries .collapsed "") (fun _ => False)
      (g.stylesheet selector scope).result) ∧
    (∀ scope selector table, FailsInOrder scope (g.entries .qualified "") (fun _ => False)
      (g.flatStylesheet selector scope table).result) ∧
    ∀ config generated, FailsInOrder config.scope (g.entries .collapsed "") Error.OfUnit
      (g.constantUnit config generated).result := by
  refine ⟨fun scope selector => ?_, fun scope selector table => ?_, fun config generated => ?_⟩
  · refine Group.failsInOrder_of_resolved (fun e h => ?_) (fun e h => ?_) (fun _ => id)
      fun _ _ _ => id
    · exact Group.stylesheet_eq_error_iff.2 h
    · exact Or.inl (Group.stylesheet_eq_error_iff.1 h)
  · refine Group.failsInOrder_of_resolved (fun e h => ?_) (fun e h => ?_) (fun _ => id)
      fun _ _ _ => id
    · exact Group.flatStylesheet_of_resolved_error h
    · exact Or.inl (Group.resolved_of_flatStylesheet_error h)
  · refine Group.failsInOrder_of_resolved (fun e h => ?_) (fun e h => ?_) (fun _ => id)
      fun _ _ _ => id
    · exact Group.constantUnit_of_resolved_error h
    · obtain hresolved | ⟨_, _, _, _, rfl⟩ | ⟨_, rfl⟩ := Group.constantUnit_eq_error h
      · exact Or.inl hresolved
      · exact Or.inr trivial
      · exact Or.inr trivial

/-- A strict table leaves the token out, and its value is refused all the same. -/
example :
    let foreign := "\x7bcore.q.source.color.b\x7d"
    (Group.flatStylesheet .root (some ⟨"core.p", []⟩) (some ⟨[], true⟩)
      [("a", .token ⟨.str foreign, .str "color", .null, []⟩)]).result =
        .error (.scopeMismatch foreign "core.p" "core.q") := by
  decide +kernel

end DesignTokens
