import DesignTokens.Proofs.Fresh
import DesignTokens.Proofs.Outcome
import DesignTokens.Tree.Walk

/-!
# When walks succeed

A walk gives the entries that it derives, in order, exactly when their paths are distinct:
`walk_eq_ok_iff`. Otherwise it fails with the first path that it derives again, and with no other
error: `walk_eq_error_iff`.
-/

namespace DesignTokens

/-- The visit of a token gives one entry, before those of the other visits. -/
theorem Visit.filterMap_entry_cons (e : Entry) (rest : List Visit) :
    (Visit.entry e :: rest).filterMap Visit.entry? = e :: rest.filterMap Visit.entry? := rfl

/-- The visits give their entries exactly when the paths of these are new. -/
theorem Visit.collect_eq_ok_iff (seen : List String) (visits : List Visit) (es : List Entry) :
    (Visit.collect seen visits).result = .ok es ↔
      es = visits.filterMap Visit.entry? ∧ Fresh seen (es.map Entry.path) := by
  -- The paths seen grow with every entry, so the induction is over all of them.
  induction visits generalizing seen es with
  | nil =>
      rw [Visit.collect, Outcome.done_result, Except.ok.injEq, List.filterMap_nil]
      constructor
      · rintro rfl
        exact ⟨rfl, Fresh.nil⟩
      · rintro ⟨rfl, -⟩
        rfl
  | cons visit rest ih =>
      cases visit with
      | skipped variants =>
          rw [Visit.collect, Outcome.note_andThen_result, ih]
          rfl
      | entry e =>
          rw [Visit.collect, Visit.filterMap_entry_cons]
          by_cases hseen : e.path ∈ seen
          · rw [if_pos (List.contains_iff_mem.2 hseen)]
            refine iff_of_false (fun h => nomatch h) ?_
            intro hentries
            obtain ⟨rfl, hfresh⟩ := hentries
            exact (Fresh.cons_iff.1 hfresh).1 hseen
          · rw [if_neg (mt List.contains_iff_mem.1 hseen), Outcome.andThen_done_eq_ok_iff]
            simp only [ih]
            constructor
            · intro hrest
              obtain ⟨es, ⟨rfl, hfresh⟩, rfl⟩ := hrest
              exact ⟨rfl, Fresh.cons_iff.2 ⟨hseen, hfresh⟩⟩
            · intro hentries
              obtain ⟨rfl, hfresh⟩ := hentries
              exact ⟨_, ⟨rfl, (Fresh.cons_iff.1 hfresh).2⟩, rfl⟩

/-- The visits fail exactly with the first path of their entries that has been seen. -/
theorem Visit.collect_eq_error_iff (seen : List String) (visits : List Visit) {e : Error} :
    (Visit.collect seen visits).result = .error e ↔
      ∃ path, FirstSeen seen ((visits.filterMap Visit.entry?).map Entry.path) path ∧
        e = .duplicatePath path := by
  induction visits generalizing seen with
  | nil =>
      refine iff_of_false nofun ?_
      rintro ⟨path, h, -⟩
      exact FirstSeen.not_nil h
  | cons visit rest ih =>
      cases visit with
      | skipped variants =>
          rw [Visit.collect, Outcome.note_andThen_result, ih]
          rfl
      | entry entry =>
          rw [Visit.collect, Visit.filterMap_entry_cons, List.map_cons]
          simp only [FirstSeen.cons_iff]
          by_cases hseen : entry.path ∈ seen
          · rw [if_pos (List.contains_iff_mem.2 hseen)]
            simp [hseen, Outcome.fail, eq_comm]
          · rw [if_neg (mt List.contains_iff_mem.1 hseen), Outcome.andThen_done_eq_error_iff, ih]
            simp [hseen]

namespace Group

variable {style : PathStyle} {path : String} {g : Group}

/-- A walk gives the entries that it derives exactly when their paths are distinct. -/
theorem walk_eq_ok_iff {es : List Entry} :
    (g.walk style path).result = .ok es ↔
      es = g.entries style path ∧ (es.map Entry.path).Nodup := by
  rw [← Fresh.nil_left_iff]
  exact Visit.collect_eq_ok_iff [] (g.visits style path) es

/-- A walk fails exactly with the first path that it derives again. -/
theorem walk_eq_error_iff {e : Error} :
    (g.walk style path).result = .error e ↔
      ∃ p, FirstRepeated ((g.entries style path).map Entry.path) p ∧ e = .duplicatePath p := by
  simp only [← FirstSeen.nil_left_iff]
  exact Visit.collect_eq_error_iff [] (g.visits style path)

/-- The only error of a walk is a path that occurs twice. -/
theorem walk_eq_error {e : Error} (h : (g.walk style path).result = .error e) :
    ∃ path, e = .duplicatePath path := by
  obtain ⟨p, -, hp⟩ := walk_eq_error_iff.1 h
  exact ⟨p, hp⟩

end Group

end DesignTokens
