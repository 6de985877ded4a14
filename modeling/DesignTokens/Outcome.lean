import DesignTokens.Error
import DesignTokens.Event

/-!
# Outcomes

An outcome is what a computation reports and how it ends. The events reported before an error are
kept. `Job m` is the same for computations that work in a monad `m`.
-/

namespace DesignTokens

/-- The events of a computation, and its result or error. -/
structure Outcome (α : Type) where
  log : List Event
  result : Except Error α

namespace Outcome

variable {α β : Type}

/-- The outcome with a result and no events. -/
def done (a : α) : Outcome α :=
  ⟨[], .ok a⟩

/-- The outcome with an error and no events. -/
def fail (e : Error) : Outcome α :=
  ⟨[], .error e⟩

/-- The outcome that reports one event. -/
def note (event : Event) : Outcome Unit :=
  ⟨[event], .ok ()⟩

/-- One computation after another. The second is not run when the first one fails. -/
def andThen (x : Outcome α) (f : α → Outcome β) : Outcome β :=
  match x.result with
  | .error e => ⟨x.log, .error e⟩
  | .ok a =>
    let next := f a
    ⟨x.log ++ next.log, next.result⟩

instance : Monad Outcome where
  pure := done
  bind := andThen

/-- The outcome of a computation that reports nothing. -/
def ofExcept (result : Except Error α) : Outcome α :=
  ⟨[], result⟩

end Outcome

/-- A computation in `m` with an outcome. -/
def Job (m : Type → Type) (α : Type) : Type :=
  m (Outcome α)

namespace Job

variable {m : Type → Type} [Monad m] {α β : Type}

/-- The computation with the given outcome. -/
def ofOutcome (x : Outcome α) : Job m α :=
  (pure x : m (Outcome α))

/-- A computation of `m` whose faults become errors. -/
def attempt {ε : Type} (x : m (Except ε α)) (toError : ε → Error) : Job m α :=
  ((fun result => Outcome.ofExcept (result.mapError toError)) <$> x : m (Outcome α))

/-- One computation after another. The second is not run when the first one fails. -/
def andThen (x : Job m α) (f : α → Job m β) : Job m β :=
  show m (Outcome β) from do
    let first : Outcome α ← x
    match first.result with
    | .error e => pure ⟨first.log, .error e⟩
    | .ok a =>
      let second : Outcome β ← f a
      pure ⟨first.log ++ second.log, second.result⟩

instance : Monad (Job m) where
  pure a := ofOutcome (.done a)
  bind := andThen

/-- The computation that reports one event. -/
def note (event : Event) : Job m Unit :=
  ofOutcome (.note event)

/-- The computation that fails. -/
def fail (e : Error) : Job m α :=
  ofOutcome (.fail e)

end Job

end DesignTokens
