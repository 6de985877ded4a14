import DesignTokens.Proofs.Files.Access

/-!
# Jobs on a disk

`Job.Ends x before a after` says that a job succeeds on a disk with a result and leaves another
disk. A sequence does so exactly when its parts do one after the other (`bind_ends_iff`). A job that
only reads is quiet and leaves the disk as it is.
-/

namespace DesignTokens

namespace Job

variable {α β : Type} {before after : Disk}

/-- A job on a disk succeeds with a result and leaves another disk. -/
def Ends (x : Job (StateM Disk) α) (before : Disk) (a : α) (after : Disk) : Prop :=
  (x before).1.result = .ok a ∧ (x before).2 = after

theorem ofOutcome_ends_iff {x : Outcome α} {a : α} :
    Ends (ofOutcome x) before a after ↔ x.result = .ok a ∧ before = after := Iff.rfl

theorem pure_ends_iff {a b : α} :
    Ends (pure a) before b after ↔ a = b ∧ before = after := by
  refine and_congr ?_ Iff.rfl
  exact Except.ok.injEq a b ▸ Iff.rfl

theorem note_ends_iff {event : Event} {a : Unit} :
    Ends (note event) before a after ↔ before = after := by
  exact and_iff_right rfl

/-- A sequence succeeds exactly when its parts do one after the other. -/
theorem bind_ends_iff {x : Job (StateM Disk) α} {f : α → Job (StateM Disk) β} {b : β} :
    Ends (x >>= f) before b after ↔
      ∃ a middle, Ends x before a middle ∧ Ends (f a) middle b after := by
  unfold Ends
  cases hresult : (x before).1.result with
  | error e =>
      rw [bind_of_error hresult]
      simp
  | ok a =>
      rw [bind_of_ok hresult]
      simp

/-- A job whose faults become errors succeeds when there is no fault. -/
theorem attempt_ends_iff {ε : Type} {x : StateM Disk (Except ε α)} {toError : ε → Error} {a : α} :
    Ends (attempt x toError) before a after ↔ (x before).1 = .ok a ∧ (x before).2 = after := by
  refine and_congr ?_ Iff.rfl
  show (x before).1.mapError toError = .ok a ↔ (x before).1 = .ok a
  cases (x before).1 with
  | error fault => simp [Except.mapError]
  | ok b => simp [Except.mapError]

/-! ## Jobs that leave the disk as it is -/

/-- A job leaves every disk as it is. -/
abbrev Quiet (x : Job (StateM Disk) α) : Prop :=
  Disk.Quiet (α := Outcome α) x

/-- A quiet job that succeeds leaves the disk as it is. -/
theorem Ends.of_quiet {x : Job (StateM Disk) α} {a : α} (h : Ends x before a after)
    (hx : Quiet x) : after = before :=
  h.2.symm.trans (hx before)

/-- A quiet step that is made or left out changes nothing for what follows. -/
theorem ends_of_optional {step : Job (StateM Disk) β} {x : Job (StateM Disk) α} {a : α}
    {condition : Prop} [Decidable condition] (hstep : Quiet step)
    (h : Ends (if condition then step >>= fun _ => x else x) before a after) :
    Ends x before a after := by
  split at h
  · obtain ⟨made, middle, hmade, hrest⟩ := bind_ends_iff.1 h
    obtain rfl := hmade.of_quiet hstep
    exact hrest
  · exact h

end Job

end DesignTokens
