import Mathlib.Data.List.Basic
import Mathlib.Data.List.Flatten

/-!
# Lines of texts

The lines of a text are what stands between its line feeds and carriage returns. A written text that
ends every line with a line feed has the lines of what was written (`lines_join`), so something that
was written is one line exactly when it has no line break in itself: `sublist_lines_iff`.
-/

namespace DesignTokens.Text

/-- The character ends a line. -/
def isLineBreak (c : Char) : Bool :=
  c == '\n' || c == '\r'

/-- The text has no line break. -/
def OneLine (text : String) : Prop :=
  ∀ c ∈ text.toList, isLineBreak c = false

instance (text : String) : Decidable (OneLine text) :=
  List.decidableBAll (fun c => isLineBreak c = false) text.toList

/-- The lines of a text. -/
def lines (text : String) : List String :=
  (text.toList.splitOnP isLineBreak).map String.ofList

variable {text : String} {few : List String}

@[simp] theorem oneLine_append {before after : String} :
    OneLine (before ++ after) ↔ OneLine before ∧ OneLine after := by
  rw [OneLine, String.toList_append]
  exact List.forall_mem_append

theorem lines_of_oneLine (h : OneLine text) : lines text = [text] := by
  rw [lines, List.splitOnP_eq_singleton h, List.map_singleton, String.ofList_toList]

/-- Between the elements at which a list is split there are none of them. -/
theorem eq_false_of_mem_splitOnP {α : Type} {p : α → Bool} {l part : List α}
    (h : part ∈ l.splitOnP p) : ∀ a ∈ part, p a = false := by
  induction l generalizing part with
  | nil =>
      rw [List.splitOnP_nil, List.mem_singleton] at h
      rw [h]
      exact List.forall_mem_nil _
  | cons a rest ih =>
      rw [List.splitOnP_cons_eq_if_modifyHead] at h
      split at h
      · rcases List.mem_cons.1 h with rfl | hrest
        · exact List.forall_mem_nil _
        · exact ih hrest
      · rename_i ha
        obtain ⟨first, later, hparts⟩ := List.exists_cons_of_ne_nil (List.splitOnP_ne_nil p rest)
        rw [hparts, List.modifyHead_cons] at h
        rcases List.mem_cons.1 h with rfl | hlater
        · exact List.forall_mem_cons.2 ⟨Bool.eq_false_iff.2 ha, ih (hparts ▸ List.mem_cons_self)⟩
        · exact ih (hparts ▸ List.mem_cons_of_mem _ hlater)

theorem oneLine_of_mem_lines {line : String} (h : line ∈ lines text) : OneLine line := by
  obtain ⟨part, hpart, rfl⟩ := List.mem_map.1 h
  rw [OneLine, String.toList_ofList]
  exact eq_false_of_mem_splitOnP hpart

/-- A line feed ends the lines before it. -/
theorem lines_append_lineFeed (before after : String) :
    lines (before ++ "\n" ++ after) = lines before ++ lines after := by
  have hsplit : (before ++ "\n" ++ after).toList = before.toList ++ '\n' :: after.toList := by
    rw [String.toList_append, String.toList_append, List.append_assoc]
    rfl
  rw [lines, hsplit, List.splitOnP_append_cons _ _ rfl, List.map_append]
  rfl

/-- Texts that are written with a line feed after each have their lines, and an empty last one. -/
theorem lines_join (texts : List String) :
    lines (String.join (texts.map (· ++ "\n"))) = texts.flatMap lines ++ [""] := by
  induction texts with
  | nil => rfl
  | cons text rest ih =>
      have hjoin : String.join ((text :: rest).map (· ++ "\n")) =
          text ++ "\n" ++ String.join (rest.map (· ++ "\n")) := by
        rw [List.map_cons, String.join_cons]
      rw [hjoin, lines_append_lineFeed, ih, List.flatMap_cons, List.append_assoc]

/-- The lines of one text are among those of several ones. -/
theorem lines_sublist_of_mem {texts : List String} (h : text ∈ texts) :
    (lines text).Sublist (texts.flatMap lines) := by
  have hone := (List.singleton_sublist.2 h).flatMap lines
  rwa [List.flatMap_singleton] at hone

/-- When a text has the lines of certain parts in order, these parts are lines of it exactly when
none of them has a line break. -/
theorem sublist_lines_iff (h : (few.flatMap lines).Sublist (lines text)) :
    few.Sublist (lines text) ↔ ∀ part ∈ few, OneLine part := by
  constructor
  · exact fun hfew part hpart => oneLine_of_mem_lines (hfew.subset hpart)
  · intro hfew
    have hsame : few.flatMap lines = few := by
      rw [List.flatMap_congr fun part hpart => lines_of_oneLine (hfew part hpart)]
      exact List.flatMap_singleton' few
    rwa [hsame] at h

end DesignTokens.Text
