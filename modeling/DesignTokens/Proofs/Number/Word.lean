import DesignTokens.Number.Binary64

/-!
# The words of numbers

A word has a sign, an exponent field and a fraction, and is the word of these. So a finite number is
the word of its dyadic value (`eq_ofDyadic_of_value`), with a significand that has its leading bit
unless the exponent is the least one. No dyadic value has the word of a not-a-number.
-/

namespace DesignTokens

namespace Binary64

variable {field fraction significand : Nat} {exponent : Int} {negative : Bool} {x : Binary64}

theorem leadingBit_eq : leadingBit = 4503599627370496 := rfl

theorem field_lt (x : Binary64) : x.field < 2048 :=
  Nat.mod_lt _ (by decide)

theorem fraction_lt (x : Binary64) : x.fraction < leadingBit :=
  Nat.mod_lt _ (by decide)

/-- The word of fields as a number. -/
theorem toNat_ofFields (hfield : field < 2048) (hfraction : fraction < leadingBit) :
    (ofFields negative field fraction).bits.toNat =
      (if negative then 9223372036854775808 else 0) + field * 4503599627370496 + fraction := by
  have hsign : Nat.pow 2 63 = 9223372036854775808 := rfl
  show (UInt64.ofNat _).toNat = _
  rw [UInt64.toNat_ofNat', leadingBit_eq, hsign]
  rw [leadingBit_eq] at hfraction
  refine Nat.mod_eq_of_lt ?_
  split <;> omega

theorem field_ofFields (hfield : field < 2048) (hfraction : fraction < leadingBit) :
    (ofFields negative field fraction).field = field := by
  have hwidth : Nat.pow 2 11 = 2048 := rfl
  rw [Binary64.field, toNat_ofFields hfield hfraction, leadingBit_eq, hwidth]
  rw [leadingBit_eq] at hfraction
  split <;> omega

theorem fraction_ofFields (hfield : field < 2048) (hfraction : fraction < leadingBit) :
    (ofFields negative field fraction).fraction = fraction := by
  rw [Binary64.fraction, toNat_ofFields hfield hfraction, leadingBit_eq]
  rw [leadingBit_eq] at hfraction
  split <;> omega

/-- A word is the one of its sign and its fields. -/
theorem eq_ofFields (x : Binary64) : x = ofFields x.negative x.field x.fraction := by
  obtain ⟨bits⟩ := x
  have hbits : bits.toNat < 18446744073709551616 := bits.toNat_lt
  have hsign : Nat.pow 2 63 = 9223372036854775808 := rfl
  have hwidth : Nat.pow 2 11 = 2048 := rfl
  refine congrArg mk (UInt64.toNat_inj.1 ?_)
  refine Eq.trans ?_ (toNat_ofFields (field_lt _) (fraction_lt _)).symm
  simp only [Binary64.negative, Binary64.field, Binary64.fraction, leadingBit_eq, hsign, hwidth]
  by_cases hnegative : bits.toNat / 9223372036854775808 % 2 = 1
  · rw [if_pos (beq_iff_eq.2 hnegative)]
    omega
  · rw [if_neg (mt beq_iff_eq.1 hnegative)]
    omega

/-! ## Dyadic values -/

/-- What a significand and an exponent must be for a finite number. A significand without its
leading bit has the least exponent. -/
structure Normal (significand : Nat) (exponent : Int) : Prop where
  lt : significand < 2 * leadingBit
  least : leastExponent ≤ exponent
  le : exponent ≤ 971
  leading : leadingBit ≤ significand ∨ exponent = leastExponent

theorem ofDyadic_zero (negative : Bool) (exponent : Int) :
    ofDyadic negative 0 exponent = zero negative :=
  if_pos (by decide)

theorem ofDecimal_zero (negative : Bool) (exponent : Int) :
    ofDecimal negative 0 exponent = zero negative :=
  if_pos rfl

/-- A finite number is the word of its value. -/
theorem eq_ofDyadic_of_value (h : x.value = .finite negative significand exponent) :
    Normal significand exponent ∧ x = ofDyadic negative significand exponent := by
  have hfield := x.field_lt
  have hfraction := x.fraction_lt
  unfold value at h
  split at h
  · split at h <;> cases h
  rename_i htop
  split at h
  · rename_i hzero
    cases h
    refine ⟨⟨by omega, by decide, by decide, Or.inr rfl⟩, ?_⟩
    rw [ofDyadic, if_pos hfraction, ← hzero]
    exact x.eq_ofFields
  · rename_i hsome
    cases h
    have htop' : x.field ≠ 2047 := htop
    have hleast : leastExponent = -1074 := rfl
    refine ⟨⟨by omega, by omega, by omega, Or.inl (Nat.le_add_right _ _)⟩, ?_⟩
    have hback : (((x.field : Int) - 1075) + 1075).toNat = x.field := by omega
    rw [ofDyadic, if_neg (by omega)]
    dsimp only
    rw [hback, if_neg (by unfold topField; omega), Nat.add_sub_cancel_left]
    exact x.eq_ofFields

/-- An infinity is the word of its sign. -/
theorem eq_infinity_of_value (h : x.value = .infinity negative) : x = infinity negative := by
  unfold value at h
  split at h
  · rename_i htop
    split at h
    · rename_i hzero
      cases h
      rw [infinity, ← htop, ← hzero]
      exact x.eq_ofFields
    · cases h
  · split at h <;> cases h

/-- The word of fields is a not-a-number only with the top exponent field and some fraction. -/
theorem value_ofFields_ne_nan (hfield : field < 2048) (hfraction : fraction < leadingBit)
    (h : field ≠ topField ∨ fraction = 0) : (ofFields negative field fraction).value ≠ .nan := by
  rw [value, field_ofFields hfield hfraction, fraction_ofFields hfield hfraction]
  intro hnan
  split at hnan
  · rename_i htop
    rw [if_pos (h.resolve_left (not_not_intro htop))] at hnan
    cases hnan
  · split at hnan <;> cases hnan

theorem value_infinity_ne_nan (negative : Bool) : (infinity negative).value ≠ .nan :=
  value_ofFields_ne_nan (by decide) (by decide) (Or.inr rfl)

/-- The word of a dyadic value is no not-a-number. -/
theorem value_ofDyadic_ne_nan (h : significand < 2 * leadingBit) :
    (ofDyadic negative significand exponent).value ≠ .nan := by
  unfold ofDyadic
  split
  · rename_i hsmall
    exact value_ofFields_ne_nan (by decide) hsmall (Or.inl (by decide))
  · dsimp only
    split
    · exact value_infinity_ne_nan negative
    · rename_i hfield
      have htop : topField = 2047 := rfl
      exact value_ofFields_ne_nan (by omega) (by omega) (Or.inl (by omega))

/-- The number is the quiet not-a-number if it is a not-a-number at all. -/
def Canonical (x : Binary64) : Prop :=
  x.value = .nan → x = nan

theorem canonical_of_ne_nan (h : x.value ≠ .nan) : x.Canonical :=
  fun hnan => (h hnan).elim

end Binary64

end DesignTokens
