import DesignTokens.Proofs.Json.RoundTrip

/-!
# Line endings of written documents

A written document has line feeds only as line endings: `carriageReturn_not_mem_pretty`. Strings
have their carriage returns escaped, and numbers are digits with a few other characters.
-/

namespace DesignTokens

namespace Json

variable {charset : Charset} {depth : Nat}

/-! ## Numbers -/

theorem Digits.carriageReturn_not_mem {digits : List Char} (h : Digits digits) : '\r' ∉ digits :=
  fun hmem => Bool.noConfusion (h '\r' hmem)

theorem carriageReturn_not_mem_signed {negative : Bool} {text : List Char} (h : '\r' ∉ text) :
    '\r' ∉ signed negative text := by
  cases negative <;> simpa [signed] using h

theorem carriageReturn_not_mem_positional (x : Decimal) : '\r' ∉ x.positional := by
  have hdigits : '\r' ∉ x.characters := (digits_toDigits x.digits).carriageReturn_not_mem
  have hzeros (count : Nat) : '\r' ∉ List.replicate count '0' :=
    (digits_zeros count).carriageReturn_not_mem
  rw [Decimal.positional]
  dsimp only
  split
  · simp [hdigits, hzeros]
  · split <;> simp [hzeros, mt List.mem_of_mem_take hdigits, mt List.mem_of_mem_drop hdigits]

theorem carriageReturn_not_mem_exponentMark (width : Nat) (exponent : Int) :
    '\r' ∉ Decimal.exponentMark width exponent := by
  have hdigits := (digits_toDigits exponent.natAbs).carriageReturn_not_mem
  have hzeros (count : Nat) := (digits_zeros count).carriageReturn_not_mem
  rw [Decimal.exponentMark]
  split <;> simp [hdigits, hzeros]

theorem carriageReturn_not_mem_scientific (width : Nat) (x : Decimal) :
    '\r' ∉ x.scientific width := by
  have hdigits : '\r' ∉ x.characters := (digits_toDigits x.digits).carriageReturn_not_mem
  rw [Decimal.scientific, List.mem_append]
  refine not_or.2 ⟨?_, carriageReturn_not_mem_exponentMark width x.leading⟩
  split
  · exact List.not_mem_nil
  · rename_i heq
    rwa [heq] at hdigits
  · rename_i heq
    rw [heq] at hdigits
    simpa using hdigits

theorem carriageReturn_not_mem_renderDecimal (layout : Layout) (x : Decimal) :
    '\r' ∉ layout.renderDecimal x := by
  unfold Layout.renderDecimal
  split
  · exact carriageReturn_not_mem_positional x
  · exact carriageReturn_not_mem_scientific _ x

theorem carriageReturn_not_mem_render (x : Binary64) : '\r' ∉ (x.render .document).toList := by
  unfold Binary64.render
  dsimp only
  split
  · decide
  · split <;> decide
  · split <;> split <;>
      simp [carriageReturn_not_mem_positional, carriageReturn_not_mem_renderDecimal]

theorem carriageReturn_not_mem_int (n : Int) : '\r' ∉ (toString n).toList := by
  rw [toList_toString_int]
  exact carriageReturn_not_mem_signed (digits_toDigits _).carriageReturn_not_mem

/-! ## Strings -/

/-- A hexadecimal digit is none. -/
theorem carriageReturn_not_mem_hexChars (width n : Nat) : '\r' ∉ hexChars width n := by
  induction width generalizing n with
  | zero => exact List.not_mem_nil
  | succ width ih =>
      have hdigit (digit : Nat) (h : digit < 16) : hexChar digit ≠ '\r' := by decide +revert
      rw [hexChars, List.mem_append, List.mem_singleton]
      exact not_or.2 ⟨ih _, (hdigit _ (Nat.mod_lt n (by decide))).symm⟩

theorem carriageReturn_not_mem_escapeChar (c : Char) : '\r' ∉ escapeChar charset c := by
  have hunit (n : Nat) : '\r' ∉ escapeUnit n := by
    simp [escapeUnit, carriageReturn_not_mem_hexChars]
  unfold escapeChar
  split_ifs
  all_goals try decide
  · exact hunit _
  · simp [hunit]
  · simp_all [eq_comm]

theorem carriageReturn_not_mem_quote (text : String) : '\r' ∉ (quote charset text).toList := by
  simp [quote, carriageReturn_not_mem_escapeChar]

/-! ## Documents -/

theorem carriageReturn_not_mem_newline (depth : Nat) : '\r' ∉ newline depth := by
  simp [newline]

theorem carriageReturn_not_mem_following {texts : List String}
    (h : ∀ text ∈ texts, '\r' ∉ text.toList) : '\r' ∉ following depth texts := by
  simpa [following, carriageReturn_not_mem_newline] using h

theorem carriageReturn_not_mem_block {opening closing : String} {texts : List String}
    (hopening : '\r' ∉ opening.toList) (hclosing : '\r' ∉ closing.toList)
    (h : ∀ text ∈ texts, '\r' ∉ text.toList) :
    '\r' ∉ (block depth opening closing texts).toList := by
  cases texts with
  | nil =>
      rw [toList_block_nil]
      simp [hopening, hclosing]
  | cons text texts =>
      obtain ⟨hfirst, hlater⟩ := List.forall_mem_cons.1 h
      rw [toList_block_cons]
      simp [hopening, hclosing, hfirst, carriageReturn_not_mem_newline,
        carriageReturn_not_mem_following hlater]

mutual

/-- A written value has no carriage return. -/
theorem carriageReturn_not_mem_prettyAt (charset : Charset) (depth : Nat) :
    ∀ x : Json, '\r' ∉ (x.prettyAt charset depth).toList
  | .null => by
    rw [prettyAt]
    decide
  | .bool b => by
    rw [prettyAt]
    cases b <;> decide
  | .int n => by
    rw [prettyAt]
    exact carriageReturn_not_mem_int n
  | .real x => by
    rw [prettyAt]
    exact carriageReturn_not_mem_render x
  | .str s => by
    rw [prettyAt]
    exact carriageReturn_not_mem_quote s
  | .arr items => by
    rw [prettyAt]
    exact carriageReturn_not_mem_block (by decide) (by decide)
      (carriageReturn_not_mem_prettyItems charset (depth + 1) items)
  | .obj fields => by
    rw [prettyAt]
    exact carriageReturn_not_mem_block (by decide) (by decide)
      (carriageReturn_not_mem_prettyFields charset (depth + 1) fields)

/-- No written item of a list has a carriage return. -/
theorem carriageReturn_not_mem_prettyItems (charset : Charset) (depth : Nat) :
    ∀ items : List Json, ∀ text ∈ prettyItems charset depth items, '\r' ∉ text.toList
  | [] => by
    rw [prettyItems]
    exact List.forall_mem_nil _
  | x :: rest => by
    rw [prettyItems]
    exact List.forall_mem_cons.2 ⟨carriageReturn_not_mem_prettyAt charset depth x,
      carriageReturn_not_mem_prettyItems charset depth rest⟩

/-- No written field of an object has a carriage return. -/
theorem carriageReturn_not_mem_prettyFields (charset : Charset) (depth : Nat) :
    ∀ fields : List (String × Json), ∀ text ∈ prettyFields charset depth fields, '\r' ∉ text.toList
  | [] => by
    rw [prettyFields]
    exact List.forall_mem_nil _
  | (name, x) :: rest => by
    have hx := carriageReturn_not_mem_prettyAt charset depth x
    rw [prettyFields]
    refine List.forall_mem_cons.2 ⟨?_, carriageReturn_not_mem_prettyFields charset depth rest⟩
    simp [carriageReturn_not_mem_quote, hx]

end

/-- A written document has no carriage return. -/
theorem carriageReturn_not_mem_pretty (charset : Charset) (x : Json) :
    '\r' ∉ (x.pretty charset).toList :=
  carriageReturn_not_mem_prettyAt charset 0 x

end Json

end DesignTokens
