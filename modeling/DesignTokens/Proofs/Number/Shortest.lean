import DesignTokens.Number.Shortest
import DesignTokens.Proofs.Number.Rounding

/-!
# The shortest decimals

The shortest decimal of a positive number rounds to the number: `shortest_rounds`. A grid has a
point that does when its step is at most the number over `10 ^ 16`, since the gaps around a number
with fifty-three bits are wider than that, so the last grid that is searched always has one.
-/

namespace DesignTokens

namespace Decimal

/-- The number that a decimal denotes. -/
def value (x : Decimal) : ℚ :=
  x.digits * 10 ^ x.exponent

/-- Trailing zeros do not change the number. -/
theorem value_strip (bound : Nat) (x : Decimal) : (x.strip bound).value = x.value := by
  induction bound generalizing x with
  | zero => rfl
  | succ bound ih =>
      rw [strip]
      split
      · rename_i h
        have hdigits : x.digits = 10 * (x.digits / 10) := by omega
        rw [ih, value, value, zpow_add_one₀ (by norm_num : (10 : ℚ) ≠ 0)]
        conv_rhs => rw [hdigits]
        push_cast
        ring
      · rfl

end Decimal

namespace RoundingInterval

open Binary64

variable {significand : Nat} {exponent : Int}

/-! ## Fractions in an interval -/

theorem fractionOf_div (digits : Nat) (e : Int) :
    ((fractionOf digits e).1 : ℚ) / (fractionOf digits e).2 = digits * 10 ^ e := by
  have hpow : (10 : ℚ) ^ e = (Nat.pow 10 e.toNat : ℕ) / (Nat.pow 10 (-e).toNat : ℕ) :=
    zpow_eq_div 10 (by decide) e
  rw [hpow, fractionOf]
  push_cast
  rw [mul_div_assoc]

theorem fractionOf_snd_pos (digits : Nat) (e : Int) : 0 < (fractionOf digits e).2 :=
  Nat.pow_pos (by decide)

/-- The interval of a number has a denominator. -/
theorem denominator_pos (significand : Nat) (exponent : Int) :
    0 < (ofDyadic significand exponent).denominator :=
  Nat.pow_pos (by decide)

/-- Multiples of the unit of an interval are quarters of the unit of its number. -/
theorem unit_div (k : Nat) (significand : Nat) (exponent : Int) :
    ((k * Nat.pow 2 (exponent - 2).toNat : ℕ) : ℚ) / (ofDyadic significand exponent).denominator =
      k / 4 * 2 ^ exponent := by
  have hpow : (2 : ℚ) ^ (exponent - 2) =
      (Nat.pow 2 (exponent - 2).toNat : ℕ) / (Nat.pow 2 (-(exponent - 2)).toNat : ℕ) :=
    zpow_eq_div 2 (by decide) _
  rw [neg_sub] at hpow
  rw [Nat.cast_mul, mul_div_assoc]
  refine (congrArg _ hpow.symm).trans ?_
  rw [zpow_sub₀ two_ne_zero]
  ring

/-- The end of an interval is compared with a fraction as numbers. -/
theorem le_point_iff {k n d : Nat} (hd : 0 < d) :
    k * Nat.pow 2 (exponent - 2).toNat * d ≤ n * (ofDyadic significand exponent).denominator ↔
      (k : ℚ) / 4 * 2 ^ exponent ≤ n / d := by
  rw [← unit_div k significand exponent,
    div_le_div_iff₀ (Nat.cast_pos.2 (denominator_pos _ _)) (Nat.cast_pos.2 hd)]
  exact_mod_cast Iff.rfl

theorem point_le_iff {k n d : Nat} (hd : 0 < d) :
    n * (ofDyadic significand exponent).denominator ≤ k * Nat.pow 2 (exponent - 2).toNat * d ↔
      (n : ℚ) / d ≤ k / 4 * 2 ^ exponent := by
  rw [← unit_div k significand exponent,
    div_le_div_iff₀ (Nat.cast_pos.2 hd) (Nat.cast_pos.2 (denominator_pos _ _))]
  exact_mod_cast Iff.rfl

/-- The fractions in the interval of a number are those that round to it. -/
theorem holds_ofDyadic_iff (hpos : 0 < significand) {n d : Nat} (hd : 0 < d) :
    (ofDyadic significand exponent).holds n d = true ↔
      Rounds significand exponent ((n : ℚ) / d) := by
  let below := if significand = leadingBit ∧ leastExponent < exponent then 1 else 2
  let unit := Nat.pow 2 (exponent - 2).toNat
  let denominator := (ofDyadic significand exponent).denominator
  have hbelow : ((4 * significand - below : ℕ) : ℚ) / 4 =
      significand -
        (if significand = leadingBit ∧ leastExponent < exponent then 1 / 4 else 1 / 2) := by
    rw [Nat.cast_sub (by unfold below; split <;> omega)]
    unfold below
    split <;> push_cast <;> ring
  have habove : ((4 * significand + 2 : ℕ) : ℚ) / 4 = significand + 1 / 2 := by
    push_cast
    ring
  have hlow : (4 * significand - below) * unit * d ≤ n * denominator ↔ _ := le_point_iff hd
  have hlow' : n * denominator ≤ (4 * significand - below) * unit * d ↔ _ := point_le_iff hd
  have hhigh : n * denominator ≤ (4 * significand + 2) * unit * d ↔ _ := point_le_iff hd
  have hhigh' : (4 * significand + 2) * unit * d ≤ n * denominator ↔ _ := le_point_iff hd
  rw [hbelow] at hlow hlow'
  rw [habove] at hhigh hhigh'
  have hholds : (ofDyadic significand exponent).holds n d =
      if (significand % 2 == 0) = true then
        decide ((4 * significand - below) * unit * d ≤ n * denominator) &&
          decide (n * denominator ≤ (4 * significand + 2) * unit * d)
      else
        decide ((4 * significand - below) * unit * d < n * denominator) &&
          decide (n * denominator < (4 * significand + 2) * unit * d) := rfl
  rw [hholds, Rounds]
  by_cases heven : significand % 2 = 0
  · rw [if_pos (beq_iff_eq.2 heven), Bool.and_eq_true, decide_eq_true_eq, decide_eq_true_eq, hlow,
      hhigh]
    simp [heven]
  · rw [if_neg (mt beq_iff_eq.1 heven), Bool.and_eq_true, decide_eq_true_eq, decide_eq_true_eq,
      ← not_le, ← not_le, hlow', hhigh', not_le, not_le]
    exact ⟨fun h => ⟨h.1.le, h.2.le, fun _ => h⟩, fun h => h.2.2 (by omega)⟩

/-- The number in the middle of its interval. -/
theorem middle_div (significand : Nat) (exponent : Int) :
    ((ofDyadic significand exponent).middle : ℚ) / (ofDyadic significand exponent).denominator =
      significand * 2 ^ exponent := by
  refine (unit_div (4 * significand) significand exponent).trans ?_
  push_cast
  ring

/-! ## Grids -/

variable {i : RoundingInterval} {e : Int}

/-- The number of steps of a grid up to the middle of an interval. -/
def floorOnGrid (i : RoundingInterval) (e : Int) : Nat :=
  i.middle * (fractionOf 1 e).2 / (i.denominator * (fractionOf 1 e).1)

/-- The best point of a grid is in the interval. -/
theorem holds_of_onGrid? {digits : Nat} (h : i.onGrid? e = some digits) :
    i.holds (fractionOf digits e).1 (fractionOf digits e).2 = true := by
  unfold onGrid? at h
  dsimp only at h
  split at h
  · rename_i hfloor hnext
    split at h
    · cases h
      exact hfloor
    split at h
    · cases h
      exact hnext
    · cases h
      split
      · exact hfloor
      · exact hnext
  · rename_i hfloor _
    cases h
    exact hfloor
  · rename_i _ hnext
    cases h
    exact hnext
  · cases h

/-- A grid has a best point when one of those around the middle is in the interval. -/
theorem onGrid?_ne_none
    (h : i.holds (fractionOf (i.floorOnGrid e) e).1 (fractionOf (i.floorOnGrid e) e).2 = true ∨
      i.holds (fractionOf (i.floorOnGrid e + 1) e).1 (fractionOf (i.floorOnGrid e + 1) e).2 =
        true) : i.onGrid? e ≠ none := by
  intro hnone
  unfold onGrid? at hnone
  dsimp only at hnone
  split at hnone
  · split at hnone
    · cases hnone
    · split at hnone <;> cases hnone
  · cases hnone
  · cases hnone
  · rename_i hfloor hnext
    exact h.elim (ne_true_of_eq_false hfloor) (ne_true_of_eq_false hnext)

/-- The steps up to the middle stop at it. -/
theorem floorOnGrid_bounds (significand : Nat) (exponent e : Int) :
    let steps := (ofDyadic significand exponent).floorOnGrid e
    (steps : ℚ) * 10 ^ e ≤ significand * 2 ^ exponent ∧
      significand * 2 ^ exponent < ((steps + 1 : ℕ) : ℚ) * 10 ^ e := by
  intro steps
  have hstep : (0 : ℚ) < 10 ^ e := by positivity
  have hup : 0 < (fractionOf 1 e).1 := by
    rw [fractionOf, one_mul]
    exact Nat.pow_pos (by decide)
  have hquotient : (((ofDyadic significand exponent).middle * (fractionOf 1 e).2 : ℕ) : ℚ) /
      ((ofDyadic significand exponent).denominator * (fractionOf 1 e).1 : ℕ) =
        significand * 2 ^ exponent / 10 ^ e := by
    have hfraction := fractionOf_div 1 e
    rw [Nat.cast_one, one_mul] at hfraction
    rw [← middle_div, ← hfraction]
    have : ((fractionOf 1 e).2 : ℚ) ≠ 0 := Nat.cast_ne_zero.2 (fractionOf_snd_pos 1 e).ne'
    push_cast
    field_simp
  have hfloor {k : Nat} : steps < k ↔ (significand : ℚ) * 2 ^ exponent / 10 ^ e < k := by
    rw [← hquotient]
    exact div_lt_iff_cast (Nat.mul_pos (denominator_pos _ _) hup)
  rw [← le_div_iff₀ hstep, ← div_lt_iff₀ hstep]
  exact ⟨not_lt.1 (mt hfloor.2 (lt_irrefl _)), hfloor.1 (Nat.lt_succ_self _)⟩

/-- A grid whose step is small enough has a point in the interval of a number. -/
theorem onGrid?_ofDyadic_ne_none (hnormal : Normal significand exponent) (hpos : 0 < significand)
    (hstep : (10 : ℚ) ^ 16 * 10 ^ e ≤ significand * 2 ^ exponent) :
    (ofDyadic significand exponent).onGrid? e ≠ none := by
  obtain ⟨hfloor, hnext⟩ := floorOnGrid_bounds significand exponent e
  refine onGrid?_ne_none ?_
  rw [holds_ofDyadic_iff hpos (fractionOf_snd_pos _ _), fractionOf_div,
    holds_ofDyadic_iff hpos (fractionOf_snd_pos _ _), fractionOf_div]
  generalize (ofDyadic significand exponent).floorOnGrid e = steps at *
  -- If both points around the number were outside, the step would be wider than the interval.
  by_contra houtside
  obtain ⟨hbelow, habove⟩ := not_or.1 houtside
  have hunit : (0 : ℚ) < 2 ^ exponent := by positivity
  let below : ℚ := if significand = leadingBit ∧ leastExponent < exponent then 1 / 4 else 1 / 2
  have hpositive : 0 < below := by
    unfold below
    split <;> norm_num
  have hmiddle : ((significand : ℚ) - below) * 2 ^ exponent < significand * 2 ^ exponent :=
    mul_lt_mul_of_pos_right (sub_lt_self _ hpositive) hunit
  have hmiddle' : (significand : ℚ) * 2 ^ exponent < (significand + 1 / 2) * 2 ^ exponent :=
    mul_lt_mul_of_pos_right (lt_add_of_pos_right _ (by norm_num)) hunit
  have hlow : (steps : ℚ) * 10 ^ e ≤ (significand - below) * 2 ^ exponent := by
    by_contra hlt
    have hin := not_le.1 hlt
    have hin' := hfloor.trans_lt hmiddle'
    exact hbelow ⟨hin.le, hin'.le, fun _ => ⟨hin, hin'⟩⟩
  have hhigh : ((significand : ℚ) + 1 / 2) * 2 ^ exponent ≤ ((steps + 1 : ℕ) : ℚ) * 10 ^ e := by
    by_contra hlt
    have hin := hmiddle.trans hnext
    have hin' := not_le.1 hlt
    exact habove ⟨hin.le, hin'.le, fun _ => ⟨hin, hin'⟩⟩
  unfold below at hlow
  push_cast at hhigh
  split at hlow
  · rename_i hpower
    rw [hpower.1, leadingBit_eq] at *
    norm_num at *
    linarith
  · have hwidth : (significand : ℚ) < 9007199254740992 := by
      have := hnormal.lt
      rw [leadingBit_eq] at this
      exact_mod_cast this
    have := mul_lt_mul_of_pos_right hwidth hunit
    norm_num at *
    linarith

/-- The digits of a positive number bound it. -/
theorem digitCount_bounds {n : Nat} (hn : 0 < n) :
    10 ^ (digitCount n - 1) ≤ n ∧ n < 10 ^ (digitCount n - 1 + 1) := by
  have hcount : 0 < digitCount n := Nat.length_toDigits_pos
  rw [Nat.sub_add_cancel hcount]
  refine ⟨?_, (Nat.length_toDigits_le_iff (by decide) hcount).1 le_rfl⟩
  obtain hone | hmore := (Nat.succ_le_of_lt hcount).eq_or_lt
  · rw [← hone]
    exact hn
  · refine not_lt.1 (mt (Nat.length_toDigits_le_iff (by decide) (by omega)).2 ?_)
    unfold digitCount at *
    omega

/-- The first grid that is searched has a step of at most the number. -/
theorem leadingExponent_le (hpos : 0 < significand) :
    (10 : ℚ) ^ (ofDyadic significand exponent).leadingExponent ≤ significand * 2 ^ exponent := by
  have hmiddle : 0 < (ofDyadic significand exponent).middle :=
    Nat.mul_pos (by omega) (Nat.pow_pos (by decide))
  have hdenominator := denominator_pos significand exponent
  rw [← middle_div, leadingExponent]
  generalize (ofDyadic significand exponent).middle = n at *
  generalize (ofDyadic significand exponent).denominator = d at *
  dsimp only
  have hcount : 0 < digitCount n := Nat.length_toDigits_pos
  have hcount' : 0 < digitCount d := Nat.length_toDigits_pos
  obtain ⟨hn, hn'⟩ := digitCount_bounds hmiddle
  obtain ⟨hd, hd'⟩ := digitCount_bounds hdenominator
  have hlow := (quotient_bounds (by decide) hn hn' hd hd').1
  split
  · refine le_of_eq_of_le ?_ hlow.le
    congr 1
    omega
  · rename_i hle
    have hfraction := fractionOf_div 1 ((digitCount n : ℤ) - digitCount d)
    rw [Nat.cast_one, one_mul] at hfraction
    rw [← hfraction, div_le_div_iff₀ (Nat.cast_pos.2 (fractionOf_snd_pos _ _))
      (Nat.cast_pos.2 hdenominator)]
    exact_mod_cast not_lt.1 hle

/-- The search ends at a best point when the last grid has one. -/
theorem onGrid?_firstGrid {more : Nat} (h : i.onGrid? (e - more) ≠ none) :
    i.onGrid? (i.firstGrid more e).exponent = some (i.firstGrid more e).digits := by
  induction more generalizing e with
  | zero =>
      obtain ⟨digits, hdigits⟩ := Option.ne_none_iff_exists'.1 h
      rw [Nat.cast_zero, sub_zero] at hdigits
      rw [firstGrid, hdigits]
      rfl
  | succ more ih =>
      rw [firstGrid]
      cases hdigits : i.onGrid? e with
      | some digits => exact hdigits
      | none =>
          refine ih ?_
          rwa [show e - 1 - (more : ℤ) = e - (more + 1 : ℕ) by omega]

/-- The shortest decimal of a number rounds to it. -/
theorem shortest_rounds (hnormal : Normal significand exponent) (hpos : 0 < significand) :
    Rounds significand exponent (Binary64.shortest significand exponent).value := by
  rw [Binary64.shortest, shortest, Decimal.value_strip]
  have hgrid : (ofDyadic significand exponent).onGrid?
      ((ofDyadic significand exponent).leadingExponent - (16 : ℕ)) ≠ none := by
    refine onGrid?_ofDyadic_ne_none hnormal hpos (le_of_eq_of_le ?_ (leadingExponent_le hpos))
    rw [← zpow_natCast, ← zpow_add₀ (by norm_num)]
    congr 1
    omega
  have hholds := holds_of_onGrid? (onGrid?_firstGrid hgrid)
  rw [holds_ofDyadic_iff hpos (fractionOf_snd_pos _ _), fractionOf_div] at hholds
  exact hholds

end RoundingInterval

namespace Binary64

section

variable {significand digits : Nat} {exponent e : Int} {v : ℚ}

/-- A decimal lies between the powers of ten around it. -/
theorem decimal_bounds (hdigits : 0 < digits) (e : Int) :
    (10 : ℚ) ^ (e + digitCount digits - 1) ≤ digits * 10 ^ e ∧
      digits * 10 ^ e < (10 : ℚ) ^ (e + digitCount digits) := by
  have hstep : (0 : ℚ) < 10 ^ e := by positivity
  have hcount : 0 < digitCount digits := Nat.length_toDigits_pos
  obtain ⟨hlow, hhigh⟩ := RoundingInterval.digitCount_bounds hdigits
  rw [Nat.sub_add_cancel hcount] at hhigh
  constructor
  · rw [show e + digitCount digits - 1 = (digitCount digits - 1 : ℕ) + e by omega,
      zpow_add₀ (by norm_num), zpow_natCast]
    exact mul_le_mul_of_nonneg_right (by exact_mod_cast hlow) hstep.le
  · rw [add_comm, zpow_add₀ (by norm_num), zpow_natCast]
    exact mul_lt_mul_of_pos_right (by exact_mod_cast hhigh) hstep

/-- No finite number is as great as this power of ten. -/
theorem Rounds.lt_pow_ten (h : Rounds significand exponent v)
    (hnormal : Normal significand exponent) : v < 10 ^ (310 : ℤ) := by
  have hpowers : ((2 ^ 1024 : ℕ) : ℚ) ≤ (10 ^ 310 : ℕ) := Nat.cast_le.2 (by decide +kernel)
  rw [Nat.cast_pow, Nat.cast_pow] at hpowers
  have hexponent := hnormal.le
  calc v < 2 ^ (53 + exponent) := h.lt hnormal
    _ ≤ 2 ^ (1024 : ℤ) := zpow_le_zpow_right₀ one_le_two (by omega)
    _ ≤ 10 ^ (310 : ℤ) := by exact_mod_cast hpowers

/-- No positive number is as small as this power of ten. -/
theorem Rounds.pow_ten_le (h : Rounds significand exponent v)
    (hnormal : Normal significand exponent) (hpos : 0 < significand) :
    (10 : ℚ) ^ (-330 : ℤ) ≤ v := by
  have hpowers : ((2 ^ 1075 : ℕ) : ℚ) ≤ (10 ^ 330 : ℕ) := Nat.cast_le.2 (by decide +kernel)
  rw [Nat.cast_pow, Nat.cast_pow] at hpowers
  have hone : (1 : ℚ) ≤ significand := Nat.one_le_cast.2 hpos
  calc (10 : ℚ) ^ (-330 : ℤ) ≤ 2 ^ (-1075 : ℤ) := by
        rw [zpow_neg, zpow_neg]
        exact inv_anti₀ (by positivity) (by exact_mod_cast hpowers)
    _ = 1 / 2 * 2 ^ leastExponent := by
        rw [show (-1075 : ℤ) = leastExponent - 1 from rfl, zpow_sub_one₀ two_ne_zero]
        ring
    _ ≤ (significand - 1 / 2) * 2 ^ exponent :=
        mul_le_mul (by linarith) (zpow_le_zpow_right₀ one_le_two hnormal.least)
          (by positivity) (by linarith)
    _ ≤ v := h.bounds.1

/-- The word nearest to a decimal is that of the number to which the decimal rounds. -/
theorem ofDecimal_of_rounds (hnormal : Normal significand exponent) (hpos : 0 < significand)
    (h : Rounds significand exponent (digits * 10 ^ e)) (negative : Bool) :
    ofDecimal negative digits e = ofDyadic negative significand exponent := by
  have hdigits : 0 < digits := by
    have := pos_of_mul_pos_left (h.pos hpos) (by positivity : (0 : ℚ) ≤ 10 ^ e)
    exact_mod_cast this
  -- The exponents of all finite numbers are between the two that are tried first.
  obtain ⟨hlow, hhigh⟩ := decimal_bounds hdigits e
  have hlarge := (zpow_lt_zpow_iff_right₀ (by norm_num : (1 : ℚ) < 10)).1
    (hlow.trans_lt (h.lt_pow_ten hnormal))
  have hsmall := (zpow_lt_zpow_iff_right₀ (by norm_num : (1 : ℚ) < 10)).1
    ((h.pow_ten_le hnormal hpos).trans_lt hhigh)
  rw [ofDecimal, if_neg hdigits.ne']
  dsimp only
  rw [if_neg (by omega), if_neg (by omega)]
  refine ofRatio_of_rounds hnormal hpos (Nat.pow_pos (by decide)) ?_ negative
  rw [← RoundingInterval.fractionOf_div] at h
  exact h

end

end Binary64

end DesignTokens
