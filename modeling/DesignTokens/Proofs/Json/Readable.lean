import DesignTokens.Json.Reader
import DesignTokens.Proofs.Fields
import DesignTokens.Proofs.Number.Rounding

/-!
# Documents that texts denote

A document that a text can denote is `Readable`: its objects repeat no names, and of the
not-a-numbers it has only the quiet one. Every document that is read is such a document:
`readable_of_read`.
-/

namespace DesignTokens

namespace Json

mutual

/-- A text can denote the value. -/
def Readable : Json → Prop
  | .real x => x.Canonical
  | .arr items => AllReadable items
  | .obj fields => Fields.WellFormed fields ∧ FieldsReadable fields
  | _ => True

/-- Texts can denote the values of a list. -/
def AllReadable : List Json → Prop
  | [] => True
  | x :: rest => x.Readable ∧ AllReadable rest

/-- Texts can denote the values of a list of fields. -/
def FieldsReadable : List (String × Json) → Prop
  | [] => True
  | (_, x) :: rest => x.Readable ∧ FieldsReadable rest

end

theorem allReadable_iff {items : List Json} : AllReadable items ↔ ∀ x ∈ items, x.Readable := by
  induction items with
  | nil => simp [AllReadable]
  | cons x rest ih => simp [AllReadable, ih]

theorem fieldsReadable_iff {fields : List (String × Json)} :
    FieldsReadable fields ↔ ∀ field ∈ fields, field.2.Readable := by
  induction fields with
  | nil => simp [FieldsReadable]
  | cons field rest ih => simp [FieldsReadable, ih]

/-- A field that is put into a readable object leaves it readable. -/
theorem Readable.insert {fields : Fields Json} (h : (obj fields).Readable) (name : String)
    {x : Json} (hx : x.Readable) : (obj (fields.insert name x)).Readable := by
  refine ⟨h.1.insert name x, fieldsReadable_iff.2 fun field hfield => ?_⟩
  obtain rfl | hold := Fields.mem_insert hfield
  · exact hx
  · exact fieldsReadable_iff.1 h.2 field hold

/-- Readable values under any names, repeated ones among them, make a readable object. -/
theorem readable_ofPairs {pairs : List (String × Json)} (h : FieldsReadable pairs) :
    (obj (Fields.ofPairs pairs)).Readable := by
  -- Inserting goes on from the pairs that are in already, so these are any readable object.
  suffices hall : ∀ fields, (obj fields).Readable →
      (obj (Fields.insertAll fields pairs)).Readable from
    hall [] ⟨List.nodup_nil, trivial⟩
  induction pairs with
  | nil => exact fun _ hfields => hfields
  | cons pair rest ih => exact fun fields hfields => ih h.2 _ (hfields.insert pair.1 h.1)

/-! ## Scalars -/

variable {cs : List Char}

theorem readable_of_readWord? {reading : Json × List Char} (h : readWord? cs = some reading) :
    reading.1.Readable := by
  obtain ⟨word, hword, hreading⟩ := List.exists_of_findSome?_eq_some h
  obtain ⟨rest, -, rfl⟩ := Option.map_eq_some_iff.1 hreading
  simp only [words, List.mem_cons, List.not_mem_nil, or_false] at hword
  rcases hword with rfl | rfl | rfl | rfl | rfl | rfl
  · trivial
  · trivial
  · trivial
  · exact fun _ => rfl
  · exact Binary64.canonical_of_ne_nan (Binary64.value_infinity_ne_nan false)
  · exact Binary64.canonical_of_ne_nan (Binary64.value_infinity_ne_nan true)

theorem readable_of_readMagnitude? {negative : Bool} {reading : Json × List Char}
    (h : readMagnitude? negative cs = some reading) : reading.1.Readable := by
  have hreal (digits : Nat) (exponent : Int) :
      (real (.ofDecimal negative digits exponent)).Readable :=
    Binary64.canonical_of_ne_nan (Binary64.value_ofDecimal_ne_nan negative digits exponent)
  obtain ⟨⟨whole, afterWhole⟩, -, h⟩ := Option.bind_eq_some_iff.1 h
  dsimp only at h
  split at h
  · cases h
    trivial
  · cases h
    exact hreal _ _
  · cases h
    exact hreal _ _

theorem readable_of_readScalar {reading : Json × List Char} (h : readScalar cs = .ok reading) :
    reading.1.Readable := by
  unfold readScalar at h
  split at h
  · rename_i found heq
    cases h
    cases hword : readWord? cs with
    | some word =>
        rw [hword] at heq
        cases heq
        exact readable_of_readWord? hword
    | none =>
        rw [hword] at heq
        change readNumber? cs = some _ at heq
        unfold readNumber? at heq
        split at heq
        · exact readable_of_readMagnitude? heq
        · exact readable_of_readMagnitude? heq
  · cases h

/-! ## Values -/

/-- What the three readers give with some fuel is readable, when what was read before is. -/
structure ReadsReadable (fuel : Nat) : Prop where
  value : ∀ {cs x rest}, readValue fuel cs = .ok (x, rest) → x.Readable
  items : ∀ {read cs x rest}, AllReadable read →
    readItems fuel read cs = .ok (x, rest) → x.Readable
  fields : ∀ {read cs x rest}, FieldsReadable read →
    readFields fuel read cs = .ok (x, rest) → x.Readable

/-- With no fuel nothing is read. -/
theorem readsReadable_zero : ReadsReadable 0 where
  value h := by cases h
  items _ h := by cases h
  fields _ h := by cases h

theorem ReadsReadable.value_succ {fuel : Nat} (h : ReadsReadable fuel) {x : Json}
    {rest : List Char} (hread : readValue (fuel + 1) cs = .ok (x, rest)) : x.Readable := by
  unfold readValue at hread
  split at hread
  · split at hread
    · cases hread
      trivial
    · cases hread
  · split at hread
    · cases hread
      exact ⟨List.nodup_nil, trivial⟩
    · exact h.fields (by trivial) hread
  · split at hread
    · cases hread
      trivial
    · exact h.items (by trivial) hread
  · exact readable_of_readScalar hread

theorem ReadsReadable.items_succ {fuel : Nat} (h : ReadsReadable fuel) {read : List Json}
    (hbefore : AllReadable read) {x : Json} {rest : List Char}
    (hread : readItems (fuel + 1) read cs = .ok (x, rest)) : x.Readable := by
  unfold readItems at hread
  split at hread
  · cases hread
  · rename_i item afterItem hitem
    have hall : AllReadable (item :: read) := ⟨h.value hitem, hbefore⟩
    split at hread
    · cases hread
      exact allReadable_iff.2 fun x hx => allReadable_iff.1 hall x (List.mem_reverse.1 hx)
    · exact h.items hall hread
    · cases hread

theorem ReadsReadable.fields_succ {fuel : Nat} (h : ReadsReadable fuel)
    {read : List (String × Json)} (hbefore : FieldsReadable read) {x : Json} {rest : List Char}
    (hread : readFields (fuel + 1) read cs = .ok (x, rest)) : x.Readable := by
  unfold readFields at hread
  split at hread
  · split at hread
    · cases hread
    · rename_i name afterName _
      split at hread
      · cases hread
      · split at hread
        · cases hread
        · rename_i value afterValue hvalue
          have hall : FieldsReadable ((name, value) :: read) := ⟨h.value hvalue, hbefore⟩
          split at hread
          · cases hread
            exact readable_ofPairs (fieldsReadable_iff.2 fun field hfield =>
              fieldsReadable_iff.1 hall field (List.mem_reverse.1 hfield))
          · exact h.fields hall hread
          · cases hread
  · cases hread

/-- The readers give what texts can denote. -/
theorem readsReadable (fuel : Nat) : ReadsReadable fuel := by
  -- Each of the three calls the others with one unit of fuel less.
  induction fuel with
  | zero => exact readsReadable_zero
  | succ fuel ih =>
      exact ⟨ih.value_succ, fun hbefore => ih.items_succ hbefore,
        fun hbefore => ih.fields_succ hbefore⟩

/-- A text can denote what is read from one. -/
theorem readable_of_read {text : String} {x : Json} (h : read text = .ok x) : x.Readable := by
  have hall : readAll text.toList = .ok x := by
    unfold read at h
    dsimp only at h
    split at h
    · rename_i value hvalue
      rw [hvalue, Except.ok.inj h]
    · cases h
  unfold readAll at hall
  split at hall
  · cases hall
  · split at hall
    · cases hall
    · rename_i value after hvalue
      split at hall
      · cases hall
        exact (readsReadable _).value hvalue
      · cases hall

end Json

end DesignTokens
