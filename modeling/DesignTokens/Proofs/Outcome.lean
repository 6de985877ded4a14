import DesignTokens.Outcome

/-!
# How outcomes end

The result of a computation that follows another one. A sequence succeeds exactly when both of its
parts do: `andThen_eq_ok_iff`. Jobs that keep a state are run from a state, and a sequence of them
goes on from the state that its first part leaves.
-/

namespace DesignTokens

/-- A sequence of checks accepts exactly when both of its parts do. -/
theorem bind_eq_ok_iff {ε α β : Type} {x : Except ε α} {f : α → Except ε β} {b : β} :
    (x >>= f) = .ok b ↔ ∃ a, x = .ok a ∧ f a = .ok b := by
  cases x with
  | error e => simp [bind, Except.bind]
  | ok a => simp [bind, Except.bind]

/-- A sequence of checks refuses exactly when one of its parts does. -/
theorem bind_eq_error_iff {ε α β : Type} {x : Except ε α} {f : α → Except ε β} {e : ε} :
    (x >>= f) = .error e ↔ x = .error e ∨ ∃ a, x = .ok a ∧ f a = .error e := by
  cases x with
  | error e' => simp [bind, Except.bind]
  | ok a => simp [bind, Except.bind]

namespace Outcome

variable {α β : Type}

@[simp] theorem done_result (a : α) : (done a).result = .ok a := rfl

/-- The result of a sequence is that of its second part, or the error of its first one. -/
theorem andThen_result (x : Outcome α) (f : α → Outcome β) :
    (x.andThen f).result = x.result.bind fun a => (f a).result := by
  unfold andThen
  cases x.result <;> rfl

/-- A sequence succeeds exactly when both of its parts do. -/
theorem andThen_eq_ok_iff {x : Outcome α} {f : α → Outcome β} {b : β} :
    (x.andThen f).result = .ok b ↔ ∃ a, x.result = .ok a ∧ (f a).result = .ok b := by
  rw [andThen_result]
  exact bind_eq_ok_iff

/-- A sequence fails exactly when one of its parts does. -/
theorem andThen_eq_error_iff {x : Outcome α} {f : α → Outcome β} {e : Error} :
    (x.andThen f).result = .error e ↔
      x.result = .error e ∨ ∃ a, x.result = .ok a ∧ (f a).result = .error e := by
  rw [andThen_result]
  exact bind_eq_error_iff

/-- A report does not change how a sequence ends. -/
@[simp] theorem note_andThen_result (event : Event) (f : Unit → Outcome β) :
    ((note event).andThen f).result = (f ()).result := rfl

/-- A sequence that ends with a function of the first result succeeds as its first part does. -/
theorem andThen_done_eq_ok_iff {x : Outcome α} {f : α → β} {b : β} :
    (x.andThen fun a => done (f a)).result = .ok b ↔ ∃ a, x.result = .ok a ∧ f a = b := by
  simp [andThen_eq_ok_iff]

/-- A sequence that ends with a function of the first result fails as its first part does. -/
theorem andThen_done_eq_error_iff {x : Outcome α} {f : α → β} {e : Error} :
    (x.andThen fun a => done (f a)).result = .error e ↔ x.result = .error e := by
  simp [andThen_eq_error_iff]

end Outcome

namespace Job

variable {σ α β γ : Type} {s : σ}

/-- A sequence ends with the error of its first part. -/
theorem bind_of_error {x : Job (StateM σ) α} {f : α → Job (StateM σ) β} {e : Error}
    (h : (x s).1.result = .error e) :
    (x >>= f) s = (⟨(x s).1.log, .error e⟩, (x s).2) := by
  cases hx : x s with
  | mk first middle =>
      rw [hx] at h
      replace h : first.result = .error e := h
      simp only [bind, andThen, StateT.bind, hx, h]
      rfl

/-- A sequence goes on with the result of its first part, from the state that this part leaves. -/
theorem bind_of_ok {x : Job (StateM σ) α} {f : α → Job (StateM σ) β} {a : α}
    (h : (x s).1.result = .ok a) :
    (x >>= f) s =
      (⟨(x s).1.log ++ (f a (x s).2).1.log, (f a (x s).2).1.result⟩, (f a (x s).2).2) := by
  cases hx : x s with
  | mk first middle =>
      rw [hx] at h
      replace h : first.result = .ok a := h
      simp only [bind, andThen, StateT.bind, hx, h]
      rfl

/-- A sequence that fails ends where its first part fails, or where its second part does after the
first one. -/
theorem bind_fails_cases {x : Job (StateM σ) α} {f : α → Job (StateM σ) β} {e : Error}
    (h : ((x >>= f) s).1.result = .error e) :
    ((x s).1.result = .error e ∧ (x >>= f) s = (⟨(x s).1.log, .error e⟩, (x s).2)) ∨
      ∃ a, (x s).1.result = .ok a ∧ (f a (x s).2).1.result = .error e ∧
        (x >>= f) s =
          (⟨(x s).1.log ++ (f a (x s).2).1.log, .error e⟩, (f a (x s).2).2) := by
  cases hx : (x s).1.result with
  | error e' =>
      have hrun := bind_of_error (f := f) hx
      rw [hrun] at h
      cases h
      exact Or.inl ⟨rfl, hrun⟩
  | ok a =>
      have hrun := bind_of_ok (f := f) hx
      rw [hrun] at h
      replace h : (f a (x s).2).1.result = .error e := h
      refine Or.inr ⟨a, rfl, h, ?_⟩
      rw [hrun, h]

/-- A job reports nothing. -/
def Silent (x : Job (StateM σ) α) : Prop :=
  ∀ s, (x s).1.log = []

theorem silent_pure (a : α) : Silent (pure a : Job (StateM σ) α) := fun _ => rfl

theorem silent_attempt {ε : Type} (x : StateM σ (Except ε α)) (toError : ε → Error) :
    Silent (attempt x toError) := fun _ => rfl

/-- A sequence of jobs that report nothing reports nothing. -/
theorem Silent.bind {x : Job (StateM σ) α} {f : α → Job (StateM σ) β} (hx : Silent x)
    (hf : ∀ a, Silent (f a)) : Silent (x >>= f) := by
  intro s
  cases hresult : (x s).1.result with
  | error e =>
      rw [bind_of_error hresult]
      exact hx s
  | ok a =>
      rw [bind_of_ok hresult]
      exact List.append_eq_nil_iff.2 ⟨hx s, hf a _⟩

/-- A job after which nothing is done is the job. -/
theorem id_map_eq (x : Job (StateM σ) α) : id <$> x = x := by
  funext s
  cases hx : (x s).1.result with
  | error e =>
      refine (bind_of_error hx).trans ?_
      rw [← hx]
      rfl
  | ok a =>
      refine (bind_of_ok hx).trans ?_
      show (⟨(x s).1.log ++ [], .ok a⟩, (x s).2) = x s
      rw [List.append_nil, ← hx]
      rfl

/-- A job before which nothing is done is the job. -/
theorem pure_bind_eq (a : α) (f : α → Job (StateM σ) β) : pure a >>= f = f a := by
  funext s
  exact bind_of_ok (x := pure a) rfl

/-- How a sequence of three jobs is taken apart does not matter. -/
theorem bind_assoc_eq (x : Job (StateM σ) α) (f : α → Job (StateM σ) β)
    (g : β → Job (StateM σ) γ) : x >>= f >>= g = x >>= fun a => f a >>= g := by
  funext s
  cases hx : (x s).1.result with
  | error e => rw [bind_of_error hx, bind_of_error (by rw [bind_of_error hx]), bind_of_error hx]
  | ok a =>
      rw [bind_of_ok hx]
      cases hf : (f a (x s).2).1.result with
      | error e =>
          rw [bind_of_error (by rw [bind_of_ok hx]; exact hf), bind_of_ok hx, bind_of_error hf]
      | ok b =>
          rw [bind_of_ok (by rw [bind_of_ok hx]; exact hf), bind_of_ok hx, bind_of_ok hf]
          simp [List.append_assoc]

/-- Jobs that keep a state follow the laws of sequences. -/
instance : LawfulMonad (Job (StateM σ)) :=
  LawfulMonad.mk' _ id_map_eq pure_bind_eq bind_assoc_eq

end Job

end DesignTokens
