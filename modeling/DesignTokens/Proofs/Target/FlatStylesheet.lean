import DesignTokens.Proofs.Fields
import DesignTokens.Proofs.Naming
import DesignTokens.Proofs.Resolution
import DesignTokens.Target.FlatStylesheet

/-!
# The names of flat stylesheets

A table fails on no token: it declares the tokens that it has a name for and leaves out the others
(`declare_result`). The tables of the two themes have the same names below different paths:
`get?_below`.
-/

namespace DesignTokens

namespace AliasTable

/-- The variable name of a token, and nothing when the token is left out. -/
def name? (table : AliasTable) (e : Entry) : Option String :=
  (table.names.get? e.path).or (if table.strict then none else some e.key)

theorem flatName_result (table : AliasTable) (e : Entry) :
    (table.flatName e).result = .ok (table.name? e) := by
  unfold flatName name?
  cases table.names.get? e.path with
  | some name => rfl
  | none =>
      dsimp only
      by_cases hstrict : table.strict = true
      · rw [if_pos hstrict, if_pos hstrict]
        rfl
      · rw [if_neg hstrict, if_neg hstrict]
        rfl

/-- The tokens that a table has a name for are declared under it, in order. -/
theorem declare_result (table : AliasTable) (rs : List (Entry × Json)) :
    (table.declare rs).result = .ok (rs.filterMap fun r =>
      (table.name? r.1).map fun name => ⟨name, r.2.display⟩) := by
  induction rs with
  | nil => rfl
  | cons r rest ih =>
      obtain ⟨e, value⟩ := r
      rw [declare, Outcome.andThen_result, flatName_result, List.filterMap_cons]
      simp only [Except.bind]
      rw [Outcome.andThen_result, ih]
      cases table.name? e <;> rfl

/-- The table below a path names the shared names there, and nothing else below it. -/
theorem get?_below (base name : String) :
    (below base).names.get? (joinPath base name) =
      if name ∈ sharedNames then some name else none := by
  unfold below
  induction sharedNames with
  | nil => rfl
  | cons first rest ih =>
      rw [List.map_cons, Fields.get?_cons]
      by_cases hname : first = name
      · simp [hname]
      · rw [if_neg ((joinPath_injective base).ne hname), ih]
        simp [Ne.symm hname]

end AliasTable

namespace Group

variable {g : Group} {scope : Option Scope} {table : AliasTable} {es : List Entry}

/-- The flat declarations of a tree whose walk succeeds: what the values of its named tokens denote,
or the error of the first value that is a reference to another scope. -/
theorem flatDeclarations_of_walk (hwalk : (g.walk .qualified "").result = .ok es) :
    (g.flatDeclarations scope table).result =
      (es.findSome? fun e => mismatch? scope e.token.value).elim
        (.ok (es.filterMap fun e =>
          (table.name? e).map fun name => ⟨name, (denoted scope e.token.value).display⟩))
        .error := by
  rw [flatDeclarations, Outcome.andThen_result, resolved_of_walk hwalk, resolveAll_result]
  cases es.findSome? fun e => mismatch? scope e.token.value with
  | some error => rfl
  | none =>
      simp only [Option.elim_none, Except.bind]
      rw [AliasTable.declare_result, List.filterMap_map]
      rfl

/-- When a walk fails, so do flat declarations. -/
theorem flatDeclarations_of_walk_error {e : Error}
    (hwalk : (g.walk .qualified "").result = .error e) :
    (g.flatDeclarations scope table).result = .error e := by
  rw [flatDeclarations, resolved, Outcome.andThen_result, Outcome.andThen_result, hwalk]
  rfl

end Group

end DesignTokens
