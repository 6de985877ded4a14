import DesignTokens.Json.Printer
import DesignTokens.Json.Reader

/-!
# Reading written strings

A written string is read back, whatever follows it: `readString_quote`. Each character of the text
takes one step of the reader, which undoes its escape (`readString_escapeChar`). Escapes by code
units need no partner that is not written with them, since no character is a surrogate.
-/

namespace DesignTokens

namespace Json

/-! ## Code units -/

/-- A digit is read as the number that it was written for. -/
theorem hexDigit?_hexChar {n : Nat} (h : n < 16) : hexDigit? (hexChar n) = some n := by
  decide +revert

theorem hexChars_four (n : Nat) :
    hexChars 4 n =
      [hexChar (n / 16 / 16 / 16 % 16), hexChar (n / 16 / 16 % 16), hexChar (n / 16 % 16),
        hexChar (n % 16)] := rfl

/-- A code unit is read as it was written when there is a character after it. -/
theorem hexQuad?_hexChars {n : Nat} (h : n < 0x10000) (next : Char) (rest : List Char) :
    hexQuad? (hexChars 4 n ++ next :: rest) = some (n, next :: rest) := by
  have hdigit (m : Nat) : hexDigit? (hexChar (m % 16)) = some (m % 16) :=
    hexDigit?_hexChar (Nat.mod_lt m (by decide))
  have hvalue : ((n / 16 / 16 / 16 % 16 * 16 + n / 16 / 16 % 16) * 16 + n / 16 % 16) * 16 +
      n % 16 = n := by
    omega
  rw [hexChars_four]
  simp only [List.cons_append, List.nil_append, hexQuad?, hdigit, Option.bind_eq_bind,
    Option.bind_some, hvalue]

/-- No character is a surrogate. -/
theorem not_surrogate (c : Char) :
    isHighSurrogate c.toNat = false ∧ isLowSurrogate c.toNat = false := by
  have hvalid : c.toNat < 0xD800 ∨ 0xDFFF < c.toNat ∧ c.toNat < 0x110000 := c.valid
  simp only [isHighSurrogate, isLowSurrogate, Bool.and_eq_false_iff, decide_eq_false_iff_not]
  omega

/-- A character is read from its only code unit. -/
theorem readUnicodeEscape_unit {c : Char} (h : c.toNat < 0x10000) (next : Char)
    (rest : List Char) :
    readUnicodeEscape (hexChars 4 c.toNat ++ next :: rest) = some (c, next :: rest) := by
  obtain ⟨hhigh, hlow⟩ := not_surrogate c
  have hunit : unitChar c.toNat = c := by
    rw [unitChar, hhigh, hlow]
    exact Char.ofNat_toNat c
  simp only [readUnicodeEscape, hexQuad?_hexChars h, hhigh, hunit]
  rfl

/-- Both halves of a surrogate pair are read as one character. -/
theorem readUnicodeEscape_halves {high low : Nat} (hhigh : isHighSurrogate high = true)
    (hlow : isLowSurrogate low = true) (next : Char) (rest : List Char) :
    readUnicodeEscape (hexChars 4 high ++ (escapeUnit low ++ next :: rest)) =
      some (Char.ofNat (0x10000 + (high - 0xD800) * 0x400 + (low - 0xDC00)), next :: rest) := by
  have hhighBound : high < 0x10000 := by
    simp only [isHighSurrogate, Bool.and_eq_true, decide_eq_true_eq] at hhigh
    omega
  have hlowBound : low < 0x10000 := by
    simp only [isLowSurrogate, Bool.and_eq_true, decide_eq_true_eq] at hlow
    omega
  have hquad := hexQuad?_hexChars hhighBound '\\' ('u' :: (hexChars 4 low ++ next :: rest))
  have hhalf : lowHalf? ('\\' :: 'u' :: (hexChars 4 low ++ next :: rest)) =
      some (low, next :: rest) := by
    simp only [lowHalf?, hexQuad?_hexChars hlowBound, hlow, if_true]
  simp only [readUnicodeEscape, escapeUnit, List.cons_append, hquad, hhigh, hhalf, if_true]

/-- A character is read from the two code units of which it needs both. -/
theorem readUnicodeEscape_pair {c : Char} (h : 0x10000 ≤ c.toNat) (next : Char)
    (rest : List Char) :
    readUnicodeEscape (hexChars 4 (0xD800 + (c.toNat - 0x10000) / 0x400) ++
        (escapeUnit (0xDC00 + (c.toNat - 0x10000) % 0x400) ++ next :: rest)) =
      some (c, next :: rest) := by
  have hvalid : c.toNat < 0xD800 ∨ 0xDFFF < c.toNat ∧ c.toNat < 0x110000 := c.valid
  have hhigh : isHighSurrogate (0xD800 + (c.toNat - 0x10000) / 0x400) = true := by
    simp only [isHighSurrogate, Bool.and_eq_true, decide_eq_true_eq]
    omega
  have hlow : isLowSurrogate (0xDC00 + (c.toNat - 0x10000) % 0x400) = true := by
    simp only [isLowSurrogate, Bool.and_eq_true, decide_eq_true_eq]
    omega
  have hpoint : 0x10000 + (0xD800 + (c.toNat - 0x10000) / 0x400 - 0xD800) * 0x400 +
      (0xDC00 + (c.toNat - 0x10000) % 0x400 - 0xDC00) = c.toNat := by
    omega
  rw [readUnicodeEscape_halves hhigh hlow, hpoint, Char.ofNat_toNat]

/-! ## Escapes -/

variable {opening read rest : List Char} {fuel : Nat} {charset : Charset}

/-- The escape by a code unit is read as what the unit stands for. -/
theorem readString_unit {digits after : List Char} {c : Char}
    (h : readUnicodeEscape digits = some (c, after)) :
    readString opening (fuel + 1) read ('\\' :: 'u' :: digits) =
      readString opening fuel (c :: read) after := by
  rw [readString]
  simp only [h]

/-- A character is read from what is written for it, in one step. -/
theorem readString_escapeChar (c next : Char) :
    readString opening (fuel + 1) read (escapeChar charset c ++ next :: rest) =
      readString opening fuel (c :: read) (next :: rest) := by
  unfold escapeChar
  split
  · subst_vars
    rfl
  split
  · subst_vars
    rfl
  split
  · subst_vars
    rfl
  split
  · subst_vars
    rfl
  split
  · subst_vars
    rfl
  split
  · subst_vars
    rfl
  split
  · subst_vars
    rfl
  split
  · rename_i hcontrol
    exact readString_unit (readUnicodeEscape_unit (by omega) next rest)
  split
  · by_cases hsmall : c.toNat < 0x10000
    · rw [codeUnits, if_pos hsmall, List.flatMap_singleton]
      exact readString_unit (readUnicodeEscape_unit hsmall next rest)
    · rw [codeUnits, if_neg hsmall, List.flatMap_cons, List.flatMap_singleton, List.append_assoc]
      exact readString_unit (readUnicodeEscape_pair (by omega) next rest)
  · rename_i hquote hslash _ _ _ _ _ hcontrol _
    rw [List.singleton_append, readString]
    · rw [if_neg hcontrol]
    · exact hquote
    · exact hslash

/-- A written string is read as its text. -/
theorem readString_quote (cs : List Char) (hfuel : cs.length < fuel) :
    readString opening fuel read (cs.flatMap (escapeChar charset) ++ '"' :: rest) =
      .ok (String.ofList (read.reverse ++ cs), rest) := by
  induction cs generalizing fuel read with
  | nil =>
      obtain ⟨fuel, rfl⟩ := Nat.exists_eq_succ_of_ne_zero (Nat.ne_zero_of_lt hfuel)
      rw [List.append_nil]
      rfl
  | cons c cs ih =>
      obtain ⟨fuel, rfl⟩ := Nat.exists_eq_succ_of_ne_zero (Nat.ne_zero_of_lt hfuel)
      -- The closing quote comes after every escape, so each has a character after it.
      obtain ⟨next, later, hlater⟩ : ∃ next later,
          cs.flatMap (escapeChar charset) ++ '"' :: rest = next :: later :=
        List.exists_cons_of_ne_nil (by simp)
      rw [List.flatMap_cons, List.append_assoc, hlater, readString_escapeChar, ← hlater,
        ih (Nat.lt_of_succ_lt_succ hfuel), List.reverse_cons, List.append_assoc]
      rfl

end Json

end DesignTokens
