import DesignTokens.Files.Access
import DesignTokens.Proofs.Outcome
import Mathlib.Order.Defs.Unbundled

/-!
# What computations do to the state of a file system

`Along R x` says that every run of `x` leads from its state to one that stands in the relation `R`
to it: the same state, the same files, or more folders. For a preorder this is closed under
sequence, so it holds of reading documents and of making folders when it holds of the single
requests.
-/

namespace DesignTokens

variable {σ α β : Type} {R : σ → σ → Prop}

/-- Every run of a computation leads from a state to a related one. -/
def Along (R : σ → σ → Prop) (x : StateM σ α) : Prop :=
  ∀ s, R s (x s).2

/-- The second part of a sequence starts from the state that the first part leaves. -/
theorem bind_apply (x : StateM σ α) (f : α → StateM σ β) (s : σ) :
    (x >>= f) s = f (x s).1 (x s).2 := rfl

theorem along_pure [IsPreorder σ R] (a : α) : Along R (pure a) :=
  fun s => refl_of R s

/-- A sequence leads along a preorder when both of its parts do. -/
theorem Along.bind [IsPreorder σ R] {x : StateM σ α} {f : α → StateM σ β} (hx : Along R x)
    (hf : ∀ a, Along R (f a)) : Along R (x >>= f) :=
  fun s => trans_of R (hx s) (hf (x s).1 (x s).2)

namespace Files

variable [IsPreorder σ R] {files : Files (StateM σ)}

/-! ## Reading documents -/

/-- Reading a text leads where reading octets does. -/
theorem along_readText (hread : ∀ path, Along R (files.read path)) (path : Path) :
    Along R (files.readText path) := by
  refine (hread path).bind fun result => ?_
  cases result with
  | error fault => exact along_pure _
  | ok octets =>
      dsimp only
      split <;> exact along_pure _

/-- Reading an object leads where reading octets does. -/
theorem along_readObject (hread : ∀ path, Along R (files.read path)) (path : Path) :
    Along R (files.readObject path) := by
  refine (along_readText hread path).bind fun result => ?_
  cases result with
  | error fault => exact along_pure _
  | ok text =>
      dsimp only
      split <;> exact along_pure _

/-! ## Making folders -/

variable (hmake : ∀ path, Along R (files.makeFolder path))
  (hlook : ∀ path, Along R (files.isFolder path))

include hmake hlook

/-- Making sure of a folder leads where the requests for it do. -/
theorem along_ensureFolder (path : Path) : Along R (files.ensureFolder path) := by
  refine (hmake path).bind fun result => ?_
  cases result with
  | ok made => exact along_pure _
  | error fault =>
      dsimp only
      split
      · exact along_pure _
      · refine (hlook path).bind fun there => ?_
        split <;> exact along_pure _

/-- Making sure of a folder and those above it leads where the requests for them do. -/
theorem along_ensureParts (anchor : String) (parts : List String) :
    Along R (files.ensureParts anchor parts) := by
  induction parts with
  | nil => exact along_ensureFolder hmake hlook _
  | cons part above ih =>
      refine (along_ensureFolder hmake hlook _).bind fun result => ?_
      cases result with
      | ok made => exact along_pure _
      | error fault =>
          dsimp only
          split
          · refine ih.bind fun result => ?_
            cases result with
            | ok made => exact along_ensureFolder hmake hlook _
            | error fault => exact along_pure _
          · exact along_pure _

end Files

/-! ## Jobs -/

namespace Job

/-- Every run of a job leads from a state to a related one. -/
abbrev Along (R : σ → σ → Prop) (x : Job (StateM σ) α) : Prop :=
  DesignTokens.Along (α := Outcome α) R x

variable [IsPreorder σ R]

theorem along_ofOutcome (x : Outcome α) : Along R (ofOutcome x) :=
  fun s => refl_of R s

theorem along_pure (a : α) : Along R (pure a) :=
  fun s => refl_of R s

theorem along_note (event : Event) : Along R (note event) :=
  fun s => refl_of R s

omit [IsPreorder σ R] in
theorem along_attempt {ε : Type} {x : StateM σ (Except ε α)} (hx : DesignTokens.Along R x)
    (toError : ε → Error) : Along R (attempt x toError) := hx

/-- A sequence of jobs leads along a preorder when both of its parts do. -/
theorem Along.bind {x : Job (StateM σ) α} {f : α → Job (StateM σ) β} (hx : Along R x)
    (hf : ∀ a, Along R (f a)) : Along R (x >>= f) := by
  refine DesignTokens.Along.bind hx fun first => ?_
  split
  · exact DesignTokens.along_pure _
  · rename_i a _
    exact DesignTokens.Along.bind (hf a) fun _ => DesignTokens.along_pure _

end Job

end DesignTokens
