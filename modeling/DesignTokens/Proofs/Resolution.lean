import DesignTokens.Proofs.Tree.Walk
import DesignTokens.Reference

/-!
# What references stand for

`denoted` is the value that resolution gives, and `mismatch?` the error with which it refuses a
reference to another scope: `resolve_result`. The resolved tokens of a tree are the entries of its
walk with the values that theirs denote: `resolved_eq_ok`. Resolving them fails with the first path
that is derived again, and with the first foreign reference when there is none:
`resolved_eq_error_iff`.
-/

namespace DesignTokens

/-- The value that a token value denotes: the color of the scope for a reference that names one, and
itself otherwise. -/
def denoted (scope : Option Scope) (value : Json) : Json :=
  match scope, value.str?.bind Reference.parse? with
  | some scope, some reference => (scope.lookup reference.name).getD value
  | _, _ => value

/-- Without a scope every value denotes itself. -/
@[simp] theorem denoted_none (value : Json) : denoted none value = value := rfl

/-- A scope refuses the references to others, unless it accepts every reference. -/
theorem Scope.accepts_eq_false_iff {scope : Scope} {id : String} :
    scope.accepts id = false ↔ scope.id ≠ anyId ∧ id ≠ scope.id := by
  rw [accepts, Bool.or_eq_false_iff, beq_eq_false_iff_ne, beq_eq_false_iff_ne, @ne_comm _ id]

/-- The error of a value that is a reference to another scope. -/
def mismatch? (scope : Option Scope) (value : Json) : Option Error :=
  match scope, value.str?.bind Reference.parse? with
  | some scope, some reference =>
    if scope.accepts reference.scope then none
    else some (.scopeMismatch reference.raw scope.id reference.scope)
  | _, _ => none

/-- A value is a reference that a scope refuses: the scope does not accept every reference, and the
reference points to another one. -/
structure Foreign (scope : Scope) (value : Json) (reference : Reference) : Prop where
  parsed : value.str?.bind Reference.parse? = some reference
  strict : scope.id ≠ Scope.anyId
  elsewhere : reference.scope ≠ scope.id

/-- The error names the reference, the scope, and the other scope that the reference points at. -/
theorem mismatch?_eq_some_iff {scope : Option Scope} {value : Json} {e : Error} :
    mismatch? scope value = some e ↔
      ∃ s ∈ scope, ∃ reference, Foreign s value reference ∧
        e = .scopeMismatch reference.raw s.id reference.scope := by
  unfold mismatch?
  constructor
  · intro h
    split at h
    · rename_i s reference hreference
      by_cases haccepts : s.accepts reference.scope = true
      · rw [if_pos haccepts] at h
        cases h
      · rw [if_neg haccepts] at h
        obtain ⟨hstrict, helsewhere⟩ :=
          Scope.accepts_eq_false_iff.1 (Bool.eq_false_iff.2 haccepts)
        exact ⟨s, rfl, reference, ⟨hreference, hstrict, helsewhere⟩, (Option.some.inj h).symm⟩
    · cases h
  · intro h
    obtain ⟨s, rfl, reference, hforeign, rfl⟩ := h
    have haccepts := Scope.accepts_eq_false_iff.2 ⟨hforeign.strict, hforeign.elsewhere⟩
    rw [hforeign.parsed]
    simp [haccepts]

/-- A value is no error exactly when it is no reference that the scope refuses. -/
theorem mismatch?_eq_none_iff {scope : Option Scope} {value : Json} :
    mismatch? scope value = none ↔ ∀ s ∈ scope, ∀ reference, ¬ Foreign s value reference := by
  rw [Option.eq_none_iff_forall_ne_some]
  simp only [ne_eq, mismatch?_eq_some_iff]
  constructor
  · intro h s hs reference hforeign
    exact h _ ⟨s, hs, reference, hforeign, rfl⟩
  · rintro h e ⟨s, hs, reference, hforeign, -⟩
    exact h s hs reference hforeign

/-- A scope that does not accept every reference is the one that a reference points to which is no
error. -/
theorem scope_of_mismatch?_eq_none {scope : Scope} {value : Json} {reference : Reference}
    (hid : scope.id ≠ Scope.anyId) (h : mismatch? (some scope) value = none)
    (hparsed : value.str?.bind Reference.parse? = some reference) :
    reference.scope = scope.id := by
  by_contra haway
  exact mismatch?_eq_none_iff.1 h scope rfl reference ⟨hparsed, hid, haway⟩

/-- Resolution gives the denoted value, except for a reference to another scope. -/
theorem resolve_result (scope : Option Scope) (value : Json) :
    (resolve scope value).result =
      (mismatch? scope value).elim (.ok (denoted scope value)) .error := by
  unfold resolve denoted mismatch?
  cases scope with
  | none => rfl
  | some scope =>
      cases value.str?.bind Reference.parse? with
      | none => rfl
      | some reference =>
          dsimp only
          by_cases haccepts : scope.accepts reference.scope = true
          · rw [if_pos haccepts, if_pos haccepts]
            cases scope.lookup reference.name <;> rfl
          · rw [if_neg haccepts, if_neg haccepts]
            rfl

/-- Resolution of entries gives what their values denote, or the error of the first one that is a
reference to another scope. -/
theorem resolveAll_result (scope : Option Scope) (es : List Entry) :
    (resolveAll scope es).result =
      (es.findSome? fun e => mismatch? scope e.token.value).elim
        (.ok (es.map fun e => (e, denoted scope e.token.value))) .error := by
  induction es with
  | nil => rfl
  | cons e rest ih =>
      rw [resolveAll, Outcome.andThen_result, resolve_result, List.findSome?_cons]
      cases mismatch? scope e.token.value with
      | some error => rfl
      | none =>
          simp only [Option.elim_none, Except.bind]
          rw [Outcome.andThen_result, ih]
          cases rest.findSome? fun e => mismatch? scope e.token.value <;> rfl

/-- Entries are resolved exactly when none of them is a reference to another scope, and then to what
their values denote. -/
theorem resolveAll_eq_ok_iff {scope : Option Scope} {es : List Entry} {rs : List (Entry × Json)} :
    (resolveAll scope es).result = .ok rs ↔
      (∀ e ∈ es, mismatch? scope e.token.value = none) ∧
        rs = es.map fun e => (e, denoted scope e.token.value) := by
  rw [resolveAll_result, ← List.findSome?_eq_none_iff]
  cases es.findSome? fun e => mismatch? scope e.token.value with
  | some error => exact iff_of_false nofun nofun
  | none =>
      rw [Option.elim_none, Except.ok.injEq, and_iff_right rfl]
      exact eq_comm

/-- A reference is that of the first entry whose value a scope refuses. -/
def FirstForeign (scope : Scope) (es : List Entry) (reference : Reference) : Prop :=
  ∃ before e after, es = before ++ e :: after ∧ Foreign scope e.token.value reference ∧
    ∀ d ∈ before, ∀ other, ¬ Foreign scope d.token.value other

/-- Resolution of entries fails exactly with the first reference that the scope refuses. -/
theorem resolveAll_eq_error_iff {scope : Option Scope} {es : List Entry} {e : Error} :
    (resolveAll scope es).result = .error e ↔
      ∃ s ∈ scope, ∃ reference, FirstForeign s es reference ∧
        e = .scopeMismatch reference.raw s.id reference.scope := by
  have hfirst : (resolveAll scope es).result = .error e ↔
      (es.findSome? fun entry => mismatch? scope entry.token.value) = some e := by
    rw [resolveAll_result]
    cases es.findSome? fun entry => mismatch? scope entry.token.value <;> simp
  rw [hfirst, List.findSome?_eq_some_iff]
  constructor
  · intro h
    obtain ⟨before, entry, after, rfl, hentry, hbefore⟩ := h
    obtain ⟨s, hs, reference, hforeign, rfl⟩ := mismatch?_eq_some_iff.1 hentry
    refine ⟨s, hs, reference, ⟨before, entry, after, rfl, hforeign, fun d hd => ?_⟩, rfl⟩
    exact mismatch?_eq_none_iff.1 (hbefore d hd) s hs
  · intro h
    obtain ⟨s, rfl, reference, ⟨before, entry, after, rfl, hforeign, hbefore⟩, rfl⟩ := h
    refine ⟨before, entry, after, rfl,
      mismatch?_eq_some_iff.2 ⟨s, rfl, reference, hforeign, rfl⟩, fun d hd => ?_⟩
    refine mismatch?_eq_none_iff.2 fun s' hs' => ?_
    obtain rfl := Option.some.inj hs'
    exact hbefore d hd

/-- No entry has a value that the scope refuses. -/
def NoneForeign (scope : Option Scope) (es : List Entry) : Prop :=
  ∀ s ∈ scope, ∀ e ∈ es, ∀ reference, ¬ Foreign s e.token.value reference

/-- Entries have a first reference that the scope refuses unless they have none. -/
theorem exists_firstForeign_iff {scope : Option Scope} {es : List Entry} :
    (∃ s ∈ scope, ∃ reference, FirstForeign s es reference) ↔ ¬ NoneForeign scope es := by
  constructor
  · intro h hnone
    obtain ⟨s, hs, reference, before, e, after, rfl, hforeign, -⟩ := h
    exact hnone s hs e (by simp) reference hforeign
  · intro h
    cases hresult : (resolveAll scope es).result with
    | error e =>
        obtain ⟨s, hs, reference, hfirst, -⟩ := resolveAll_eq_error_iff.1 hresult
        exact ⟨s, hs, reference, hfirst⟩
    | ok rs =>
        refine (h fun s hs e he => ?_).elim
        exact mismatch?_eq_none_iff.1 ((resolveAll_eq_ok_iff.1 hresult).1 e he) s hs

namespace Group

variable {style : PathStyle} {scope : Option Scope} {g : Group} {rs : List (Entry × Json)}

/-- The tokens of a tree whose walk succeeds are resolved as its entries are. -/
theorem resolved_of_walk {es : List Entry} (hwalk : (g.walk style "").result = .ok es) :
    (g.resolved style scope).result = (resolveAll scope es).result := by
  rw [resolved, Outcome.andThen_result, hwalk]
  rfl

/-- The resolved tokens of a tree are the entries of its walk with what their values denote, and
their paths are distinct. -/
theorem resolved_eq_ok (h : (g.resolved style scope).result = .ok rs) :
    (g.walk style "").result = .ok (g.entries style "") ∧
      rs = (g.entries style "").map fun e => (e, denoted scope e.token.value) := by
  obtain ⟨es, hes, h⟩ := Outcome.andThen_eq_ok_iff.1 h
  obtain rfl := (walk_eq_ok_iff.1 hes).1
  exact ⟨hes, (resolveAll_eq_ok_iff.1 h).2⟩

/-- The tokens of a tree are resolved exactly when the derived paths are distinct and no token is a
reference to another scope. -/
theorem resolved_eq_ok_iff :
    (g.resolved style scope).result = .ok rs ↔
      ((g.entries style "").map Entry.path).Nodup ∧
        (∀ e ∈ g.entries style "", mismatch? scope e.token.value = none) ∧
        rs = (g.entries style "").map fun e => (e, denoted scope e.token.value) := by
  rw [resolved, Outcome.andThen_eq_ok_iff]
  constructor
  · intro hresolved
    obtain ⟨es, hwalk, hes⟩ := hresolved
    obtain ⟨rfl, hpaths⟩ := walk_eq_ok_iff.1 hwalk
    exact ⟨hpaths, resolveAll_eq_ok_iff.1 hes⟩
  · intro hboth
    obtain ⟨hpaths, hes⟩ := hboth
    exact ⟨_, walk_eq_ok_iff.2 ⟨rfl, hpaths⟩, resolveAll_eq_ok_iff.2 hes⟩

/-- No token of a tree whose tokens are resolved is a reference to another scope. -/
theorem mismatch?_of_resolved (h : (g.resolved style scope).result = .ok rs) :
    ∀ e ∈ g.entries style "", mismatch? scope e.token.value = none := by
  obtain ⟨es, hes, h⟩ := Outcome.andThen_eq_ok_iff.1 h
  obtain rfl := (walk_eq_ok_iff.1 hes).1
  exact (resolveAll_eq_ok_iff.1 h).1

/-- The tokens of a tree are resolved exactly when their paths are distinct and the scope refuses
none of their values. -/
theorem exists_resolved_iff :
    (∃ rs, (g.resolved style scope).result = .ok rs) ↔
      ((g.entries style "").map Entry.path).Nodup ∧ NoneForeign scope (g.entries style "") := by
  simp only [resolved_eq_ok_iff, mismatch?_eq_none_iff, exists_and_left, exists_eq, and_true]
  refine and_congr_right fun _ => ⟨?_, ?_⟩
  · exact fun h s hs e he => h e he s hs
  · exact fun h e he s hs => h s hs e he

/-- Resolving the tokens of a tree fails exactly with the first path that is derived again, or, when
there is none, with the first reference that the scope refuses. -/
theorem resolved_eq_error_iff {e : Error} :
    (g.resolved style scope).result = .error e ↔
      (∃ path, FirstRepeated ((g.entries style "").map Entry.path) path ∧
          e = .duplicatePath path) ∨
        ((g.entries style "").map Entry.path).Nodup ∧
          ∃ s ∈ scope, ∃ reference, FirstForeign s (g.entries style "") reference ∧
            e = .scopeMismatch reference.raw s.id reference.scope := by
  rw [resolved, Outcome.andThen_eq_error_iff, walk_eq_error_iff]
  simp only [walk_eq_ok_iff, resolveAll_eq_error_iff]
  refine or_congr_right ⟨?_, ?_⟩
  · rintro ⟨es, ⟨rfl, hpaths⟩, h⟩
    exact ⟨hpaths, h⟩
  · rintro ⟨hpaths, h⟩
    exact ⟨_, ⟨rfl, hpaths⟩, h⟩

/-- Resolving the tokens of a tree fails with a path that occurs twice, or with the reference of a
token to another scope. -/
theorem resolved_eq_error {e : Error} (h : (g.resolved style scope).result = .error e) :
    (∃ path, e = .duplicatePath path) ∨
      ∃ s ∈ scope, ∃ entry ∈ g.entries style "", ∃ reference,
        Foreign s entry.token.value reference ∧
          e = .scopeMismatch reference.raw s.id reference.scope := by
  obtain ⟨path, -, hpath⟩ | ⟨-, s, hs, reference, hfirst, he⟩ := resolved_eq_error_iff.1 h
  · exact Or.inl ⟨path, hpath⟩
  · obtain ⟨before, entry, after, hes, hforeign, -⟩ := hfirst
    exact Or.inr ⟨s, hs, entry, by simp [hes], reference, hforeign, he⟩

/-- The names of the resolved tokens are the derived paths, in order and without repetition. -/
theorem nodup_resolved_paths (h : (g.resolved style scope).result = .ok rs) :
    (rs.map fun r => r.1.path).Nodup ∧
      rs.map (fun r => r.1.path) = (g.entries style "").map Entry.path := by
  obtain ⟨hwalk, rfl⟩ := resolved_eq_ok h
  have hpaths := (walk_eq_ok_iff.1 hwalk).2
  rw [List.map_map]
  exact ⟨hpaths, rfl⟩

end Group

end DesignTokens
