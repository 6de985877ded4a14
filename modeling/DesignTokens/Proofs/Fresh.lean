import Mathlib.Data.List.Nodup
import Mathlib.Tactic.Tauto

/-!
# Names that are new

Walks and units refuse the first name that occurred before. `Fresh seen names` is what their loops
preserve: the names still to come differ from each other and from those seen. `FirstSeen` is the
name at which they stop, and there is one exactly when names are repeated:
`exists_firstRepeated_iff`.
-/

namespace DesignTokens

/-- The names are distinct, and none of them has been seen. -/
def Fresh {α : Type} (seen names : List α) : Prop :=
  names.Nodup ∧ ∀ name ∈ names, name ∉ seen

namespace Fresh

variable {α : Type} {seen names : List α} {name : α}

@[simp] theorem nil : Fresh seen [] :=
  ⟨List.nodup_nil, fun _ hname => absurd hname List.not_mem_nil⟩

/-- The first name is new, and the others are once it has been seen. -/
theorem cons_iff : Fresh seen (name :: names) ↔ name ∉ seen ∧ Fresh (name :: seen) names := by
  unfold Fresh
  rw [List.nodup_cons, List.forall_mem_cons]
  simp only [List.mem_cons, not_or]
  constructor
  · intro hall
    obtain ⟨⟨hname, hnodup⟩, hseen, hnames⟩ := hall
    refine ⟨hseen, hnodup, fun other hother => ⟨?_, hnames other hother⟩⟩
    intro heq
    exact hname (heq ▸ hother)
  · intro hall
    obtain ⟨hseen, hnodup, hnames⟩ := hall
    exact ⟨⟨fun hname => (hnames name hname).1 rfl, hnodup⟩, hseen,
      fun other hother => (hnames other hother).2⟩

/-- When nothing has been seen, names need only be distinct. -/
theorem nil_left_iff : Fresh [] names ↔ names.Nodup := by
  simp [Fresh]

end Fresh

/-! ## The first name that is not new -/

section

variable {α : Type} {seen names : List α} {first name : α}

/-- The name is the first one that has been seen when it comes, before the list or in it. -/
def FirstSeen (seen names : List α) (name : α) : Prop :=
  ∃ before after, names = before ++ name :: after ∧ Fresh seen before ∧
    (name ∈ seen ∨ name ∈ before)

/-- The name is the first one of the list that occurred in it before. -/
def FirstRepeated (names : List α) (name : α) : Prop :=
  ∃ before after, names = before ++ name :: after ∧ before.Nodup ∧ name ∈ before

namespace FirstSeen

theorem not_nil : ¬ FirstSeen seen [] name := by
  rintro ⟨before, after, hnames, -⟩
  simp at hnames

/-- The first name is the one when it has been seen. Otherwise the one is found among the others,
once the first name has been seen. -/
theorem cons_iff :
    FirstSeen seen (first :: names) name ↔
      (first ∈ seen ∧ name = first) ∨ (first ∉ seen ∧ FirstSeen (first :: seen) names name) := by
  constructor
  · intro h
    obtain ⟨before, after, hnames, hfresh, hseen⟩ := h
    cases before with
    | nil =>
        obtain ⟨rfl, rfl⟩ := List.cons.inj hnames
        exact Or.inl ⟨hseen.resolve_right List.not_mem_nil, rfl⟩
    | cons other before =>
        obtain ⟨rfl, rfl⟩ := List.cons.inj hnames
        obtain ⟨hfirst, hfresh⟩ := Fresh.cons_iff.1 hfresh
        refine Or.inr ⟨hfirst, before, after, rfl, hfresh, ?_⟩
        simp only [List.mem_cons] at hseen ⊢
        tauto
  · rintro (⟨hfirst, rfl⟩ | ⟨hfirst, before, after, rfl, hfresh, hseen⟩)
    · exact ⟨[], names, rfl, Fresh.nil, Or.inl hfirst⟩
    · refine ⟨first :: before, after, rfl, Fresh.cons_iff.2 ⟨hfirst, hfresh⟩, ?_⟩
      simp only [List.mem_cons] at hseen ⊢
      tauto

/-- When nothing has been seen, the first name seen is the first one that is repeated. -/
theorem nil_left_iff : FirstSeen [] names name ↔ FirstRepeated names name := by
  simp [FirstSeen, FirstRepeated, Fresh.nil_left_iff]

/-- Some name has been seen exactly when the names are not all new. -/
theorem exists_iff : (∃ name, FirstSeen seen names name) ↔ ¬ Fresh seen names := by
  induction names generalizing seen with
  | nil => exact iff_of_false (fun ⟨_, h⟩ => not_nil h) fun h => h Fresh.nil
  | cons first rest ih =>
      simp only [cons_iff, exists_or, exists_and_left, ih, exists_eq, and_true, Fresh.cons_iff]
      tauto

end FirstSeen

/-- Renaming that keeps names apart renames the first one that is repeated. -/
theorem FirstRepeated.map_iff {β : Type} {f : α → β} (hf : Function.Injective f) {renamed : β} :
    FirstRepeated (names.map f) renamed ↔ ∃ name, FirstRepeated names name ∧ renamed = f name := by
  constructor
  · intro h
    obtain ⟨front, back, hnames, hfront, hmem⟩ := h
    obtain ⟨before, rest, rfl, rfl, hrest⟩ := List.map_eq_append_iff.1 hnames
    obtain ⟨name, after, rfl, rfl, -⟩ := List.map_eq_cons_iff.1 hrest
    exact ⟨name, ⟨before, after, rfl, (List.nodup_map_iff hf).1 hfront,
      (List.mem_map_of_injective hf).1 hmem⟩, rfl⟩
  · rintro ⟨name, ⟨before, after, rfl, hbefore, hmem⟩, rfl⟩
    exact ⟨before.map f, after.map f, by simp, (List.nodup_map_iff hf).2 hbefore,
      List.mem_map_of_mem hmem⟩

/-- Some name is repeated exactly when the names are not distinct. -/
theorem exists_firstRepeated_iff : (∃ name, FirstRepeated names name) ↔ ¬ names.Nodup := by
  simp only [← FirstSeen.nil_left_iff, FirstSeen.exists_iff, Fresh.nil_left_iff]

end

/-- Where names are distinct, an element is the only one with its name. -/
theorem filter_eq_singleton {α β : Type} [DecidableEq β] {name : α → β} {l : List α} {a : α}
    (h : (l.map name).Nodup) (ha : a ∈ l) : l.filter (fun b => name b = name a) = [a] := by
  induction l with
  | nil => cases ha
  | cons b rest ih =>
      obtain ⟨hb, hrest⟩ := List.nodup_cons.1 h
      rcases List.mem_cons.1 ha with rfl | hmem
      · have hnone : rest.filter (fun c => name c = name a) = [] := by
          refine List.filter_eq_nil_iff.2 fun c hc heq => hb ?_
          exact of_decide_eq_true heq ▸ List.mem_map_of_mem hc
        rw [List.filter_cons_of_pos (by simp), hnone]
      · have hne : name b ≠ name a := fun heq => hb (heq ▸ List.mem_map_of_mem hmem)
        rw [List.filter_cons_of_neg (by simpa using hne), ih hrest hmem]

end DesignTokens
