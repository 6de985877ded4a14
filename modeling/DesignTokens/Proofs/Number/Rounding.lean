import DesignTokens.Proofs.Number.Word
import Mathlib.Algebra.Order.Field.Power
import Mathlib.Data.Rat.Cast.Order
import Mathlib.Tactic.FieldSimp
import Mathlib.Tactic.Linarith
import Mathlib.Tactic.Positivity
import Mathlib.Tactic.Ring

/-!
# Rounding to numbers

`Rounds significand exponent v` says that `v` lies between the halves of the gaps around the number
`significand * 2 ^ exponent`, where the ends belong to an even significand. The word nearest to any
such quotient is that of the number: `ofRatio_of_rounds`.
-/

namespace DesignTokens

namespace Binary64

/-! ## Quotients and powers -/

/-- A power with an integer exponent is a quotient of powers, one of them by one. -/
theorem zpow_eq_div (base : Nat) (hbase : 0 < base) (k : Int) :
    (base : ℚ) ^ k = (Nat.pow base k.toNat : ℕ) / (Nat.pow base (-k).toNat : ℕ) := by
  have hne : (base : ℚ) ≠ 0 := by positivity
  obtain hk | hk := le_total 0 k
  · obtain ⟨n, rfl⟩ := Int.eq_ofNat_of_zero_le hk
    simp
  · obtain ⟨n, hn⟩ := Int.eq_ofNat_of_zero_le (Int.neg_nonneg_of_nonpos hk)
    obtain rfl : k = -n := by omega
    simp

/-- Scaling divides a quotient by a power of two. -/
theorem scaled_div (n d : Nat) (e : Int) :
    ((scaled n d e).1 : ℚ) / ((scaled n d e).2 : ℚ) = (n : ℚ) / d / 2 ^ e := by
  have hup : (0 : ℚ) < (Nat.pow 2 e.toNat : ℕ) := Nat.cast_pos.2 (Nat.pow_pos (by decide))
  have hdown : (0 : ℚ) < (Nat.pow 2 (-e).toNat : ℕ) := Nat.cast_pos.2 (Nat.pow_pos (by decide))
  have hpow : (2 : ℚ) ^ e = (Nat.pow 2 e.toNat : ℕ) / (Nat.pow 2 (-e).toNat : ℕ) :=
    zpow_eq_div 2 (by decide) e
  simp only [scaled, Nat.cast_mul]
  rw [hpow]
  field_simp

theorem scaled_snd_pos {d : Nat} (n : Nat) (hd : 0 < d) (e : Int) : 0 < (scaled n d e).2 :=
  Nat.mul_pos hd (Nat.pow_pos (by decide))

/-- A quotient without its fraction is below a number exactly when the quotient is. -/
theorem div_lt_iff_cast {n d k : Nat} (hd : 0 < d) : n / d < k ↔ (n : ℚ) / d < k := by
  rw [Nat.div_lt_iff_lt_mul hd, div_lt_iff₀ (Nat.cast_pos.2 hd)]
  exact_mod_cast Iff.rfl

/-- The exponents of both terms bound a quotient. -/
theorem quotient_bounds {base n d k l : Nat} (hbase : 1 < base) (hn : base ^ k ≤ n)
    (hn' : n < base ^ (k + 1)) (hd : base ^ l ≤ d) (hd' : d < base ^ (l + 1)) :
    (base : ℚ) ^ ((k : ℤ) - l - 1) < (n : ℚ) / d ∧
      (n : ℚ) / d < (base : ℚ) ^ ((k : ℤ) - l + 1) := by
  have hpositive : (0 : ℚ) < base := Nat.cast_pos.2 (by omega)
  have hne := hpositive.ne'
  have hlow : (base : ℚ) ^ k ≤ n := by exact_mod_cast hn
  have hhigh : (n : ℚ) < (base : ℚ) ^ (k + 1) := by exact_mod_cast hn'
  have hlow' : (base : ℚ) ^ l ≤ d := by exact_mod_cast hd
  have hhigh' : (d : ℚ) < (base : ℚ) ^ (l + 1) := by exact_mod_cast hd'
  have hpos : (0 : ℚ) < (base : ℚ) ^ l := pow_pos hpositive l
  constructor
  · have hsplit : (base : ℚ) ^ ((k : ℤ) - l - 1) = (base : ℚ) ^ k / (base : ℚ) ^ (l + 1) := by
      rw [sub_sub, zpow_sub₀ hne, zpow_natCast]
      norm_cast
    rw [hsplit]
    exact div_lt_div₀' hlow hhigh' (hlow.trans_lt' (pow_pos hpositive k)) (hpos.trans_le hlow')
  · have hsplit : (base : ℚ) ^ ((k : ℤ) - l + 1) = (base : ℚ) ^ (k + 1) / (base : ℚ) ^ l := by
      rw [show (k : ℤ) - l + 1 = (k + 1 : ℕ) - l by omega, zpow_sub₀ hne, zpow_natCast,
        zpow_natCast]
    rw [hsplit]
    exact div_lt_div₀ hhigh hlow' (pow_pos hpositive (k + 1)).le hpos

/-! ## Exponents of quotients -/

/-- The exponent of a quotient is the one at which it has fifty-three bits before the point, unless
that is below the least one. -/
theorem ratioExponent_spec {n d : Nat} (hn : 0 < n) (hd : 0 < d) :
    leastExponent ≤ ratioExponent n d ∧ (n : ℚ) / d < 2 ^ (53 + ratioExponent n d) ∧
      (ratioExponent n d = leastExponent ∨ 2 ^ (52 + ratioExponent n d) ≤ (n : ℚ) / d) := by
  obtain ⟨hlow, hhigh⟩ := quotient_bounds one_lt_two (Nat.log2_self_le hn.ne') Nat.lt_log2_self
    (Nat.log2_self_le hd.ne') Nat.lt_log2_self
  let guess : ℤ := (n.log2 : ℤ) - d.log2 - 52
  let exact : ℤ := if (scaled n d guess).1 / (scaled n d guess).2 < leadingBit then guess - 1
    else guess
  -- Fifty-three bits may be one too many, and then the next lower exponent is the right one.
  have hexact : (2 : ℚ) ^ (52 + exact) ≤ (n : ℚ) / d ∧ (n : ℚ) / d < 2 ^ (53 + exact) := by
    have hsmall : (scaled n d guess).1 / (scaled n d guess).2 < leadingBit ↔
        (n : ℚ) / d < 2 ^ (52 + guess) := by
      rw [div_lt_iff_cast (scaled_snd_pos n hd guess), scaled_div, div_lt_iff₀ (by positivity),
        zpow_add₀ two_ne_zero, leadingBit_eq]
      norm_num
    by_cases h : (scaled n d guess).1 / (scaled n d guess).2 < leadingBit
    · have hguess : exact = guess - 1 := if_pos h
      rw [show 52 + exact = (n.log2 : ℤ) - d.log2 - 1 by omega,
        show 53 + exact = 52 + guess by omega]
      exact ⟨hlow.le, hsmall.1 h⟩
    · have hguess : exact = guess := if_neg h
      rw [hguess, show 53 + guess = (n.log2 : ℤ) - d.log2 + 1 by omega]
      exact ⟨not_lt.1 (mt hsmall.2 h), hhigh⟩
  have hmax : ratioExponent n d = max leastExponent exact := rfl
  rw [hmax]
  refine ⟨le_max_left _ _, hexact.2.trans_le ?_, ?_⟩
  · exact zpow_le_zpow_right₀ one_le_two (add_le_add_right (le_max_right _ _) _)
  · obtain h | h := le_total exact leastExponent
    · exact Or.inl (max_eq_left h)
    · rw [max_eq_right h]
      exact Or.inr hexact.1

/-- There is only one such exponent. -/
theorem eq_ratioExponent {n d : Nat} {e : Int} (hn : 0 < n) (hd : 0 < d)
    (hleast : leastExponent ≤ e) (hhigh : (n : ℚ) / d < 2 ^ (53 + e))
    (hlow : e = leastExponent ∨ 2 ^ (52 + e) ≤ (n : ℚ) / d) : ratioExponent n d = e := by
  obtain ⟨hleast', hhigh', hlow'⟩ := ratioExponent_spec hn hd
  generalize ratioExponent n d = e' at *
  have hbelow {a b : ℤ} (hleast : leastExponent ≤ b) (hhigh : (n : ℚ) / d < 2 ^ (53 + b))
      (hlow : a = leastExponent ∨ 2 ^ (52 + a) ≤ (n : ℚ) / d) : a ≤ b := by
    obtain rfl | hlow := hlow
    · exact hleast
    · have := (zpow_lt_zpow_iff_right₀ (one_lt_two (α := ℚ))).1 (hlow.trans_lt hhigh)
      omega
  exact le_antisymm (hbelow hleast hhigh hlow') (hbelow hleast' hhigh' hlow)

/-! ## Rounding -/

/-- A quotient is rounded to the integer that is at most a half away, and to an odd one only when it
is nearer than a half. -/
theorem roundHalfEven_eq {n d k : Nat} (hd : 0 < d) (hlow : 2 * (k * d) ≤ 2 * n + d)
    (hhigh : 2 * n ≤ 2 * (k * d) + d)
    (htie : k % 2 = 1 → 2 * (k * d) < 2 * n + d ∧ 2 * n < 2 * (k * d) + d) :
    roundHalfEven n d = k := by
  have hsplit := Nat.div_add_mod n d
  have hmod := Nat.mod_lt n hd
  unfold roundHalfEven
  dsimp only
  generalize n / d = q at *
  generalize n % d = r at *
  have hupper : q ≤ k := by
    by_contra hlt
    have := Nat.mul_le_mul_left d (Nat.succ_le_of_lt (not_le.1 hlt))
    rw [Nat.mul_succ, Nat.mul_comm d k] at this
    omega
  have hlower : k ≤ q + 1 := by
    by_contra hlt
    have := Nat.mul_le_mul_left d (Nat.succ_le_of_lt (not_le.1 hlt))
    rw [Nat.mul_succ, Nat.mul_succ, Nat.mul_comm d k] at this
    omega
  obtain rfl | hlt := hupper.eq_or_lt
  · -- The integer is the quotient, so the remainder is at most a half.
    rw [Nat.mul_comm q d] at *
    rw [← hsplit] at *
    split
    · rfl
    split
    · omega
    split
    · rfl
    · omega
  · -- The integer is the next one, so the remainder is at least a half.
    obtain rfl : k = q + 1 := by omega
    have hproduct : (q + 1) * d = d * q + d := by rw [Nat.succ_mul, Nat.mul_comm]
    rw [hproduct] at hlow htie
    split
    · omega
    split
    · rfl
    split
    · omega
    · rfl

/-- The same for the quotient as a number. -/
theorem roundHalfEven_of_div {n d k : Nat} (hd : 0 < d) (hlow : (k : ℚ) - 1 / 2 ≤ (n : ℚ) / d)
    (hhigh : (n : ℚ) / d ≤ k + 1 / 2)
    (htie : k % 2 = 1 → (k : ℚ) - 1 / 2 < (n : ℚ) / d ∧ (n : ℚ) / d < k + 1 / 2) :
    roundHalfEven n d = k := by
  have hd' : (0 : ℚ) < d := Nat.cast_pos.2 hd
  rw [le_div_iff₀ hd'] at hlow
  rw [div_le_iff₀ hd'] at hhigh
  simp only [lt_div_iff₀ hd', div_lt_iff₀ hd'] at htie
  refine roundHalfEven_eq hd ?_ ?_ fun hodd => ?_
  · have : (2 * (k * d) : ℚ) ≤ 2 * n + d := by linarith
    exact_mod_cast this
  · have : (2 * n : ℚ) ≤ 2 * (k * d) + d := by linarith
    exact_mod_cast this
  · obtain ⟨hlow, hhigh⟩ := htie hodd
    have hlow' : (2 * (k * d) : ℚ) < 2 * n + d := by linarith
    have hhigh' : (2 * n : ℚ) < 2 * (k * d) + d := by linarith
    exact ⟨by exact_mod_cast hlow', by exact_mod_cast hhigh'⟩

/-- The number lies between the halves of the gaps around `significand * 2 ^ exponent`. The gap
below a power of two is half as wide, and the ends belong to an even significand. -/
def Rounds (significand : Nat) (exponent : Int) (v : ℚ) : Prop :=
  let below : ℚ := if significand = leadingBit ∧ leastExponent < exponent then 1 / 4 else 1 / 2
  let low := ((significand : ℚ) - below) * 2 ^ exponent
  let high := ((significand : ℚ) + 1 / 2) * 2 ^ exponent
  low ≤ v ∧ v ≤ high ∧ (significand % 2 = 1 → low < v ∧ v < high)

/-- What rounds to a number is at most a half of its unit away from it. -/
theorem Rounds.bounds {significand : Nat} {exponent : Int} {v : ℚ}
    (h : Rounds significand exponent v) :
    ((significand : ℚ) - 1 / 2) * 2 ^ exponent ≤ v ∧
      v ≤ ((significand : ℚ) + 1 / 2) * 2 ^ exponent ∧
      (significand % 2 = 1 → ((significand : ℚ) - 1 / 2) * 2 ^ exponent < v ∧
        v < ((significand : ℚ) + 1 / 2) * 2 ^ exponent) := by
  obtain ⟨hlow, hhigh, hstrict⟩ := h
  have hbelow : (if significand = leadingBit ∧ leastExponent < exponent then 1 / 4 else 1 / 2 : ℚ) ≤
      1 / 2 := by
    split <;> norm_num
  have hhalf : ((significand : ℚ) - 1 / 2) * 2 ^ exponent ≤
      (significand -
        (if significand = leadingBit ∧ leastExponent < exponent then 1 / 4 else 1 / 2)) *
          2 ^ exponent :=
    mul_le_mul_of_nonneg_right (sub_le_sub_left hbelow _) (by positivity)
  exact ⟨hhalf.trans hlow, hhigh, fun hodd =>
    ⟨hhalf.trans_lt (hstrict hodd).1, (hstrict hodd).2⟩⟩

/-- What rounds to a positive number is positive. -/
theorem Rounds.pos {significand : Nat} {exponent : Int} {v : ℚ} (hpos : 0 < significand)
    (h : Rounds significand exponent v) : 0 < v := by
  have hone : (1 : ℚ) ≤ significand := Nat.one_le_cast.2 hpos
  refine lt_of_lt_of_le (mul_pos ?_ (by positivity)) h.bounds.1
  linarith

/-- What rounds to a number has no more bits before the point than it. -/
theorem Rounds.lt {significand : Nat} {exponent : Int} {v : ℚ}
    (hnormal : Normal significand exponent) (h : Rounds significand exponent v) :
    v < 2 ^ (53 + exponent) := by
  refine h.bounds.2.1.trans_lt ?_
  rw [zpow_add₀ two_ne_zero]
  refine mul_lt_mul_of_pos_right ?_ (by positivity)
  have hlt : (significand + 1 : ℚ) ≤ 2 * leadingBit := by exact_mod_cast hnormal.lt
  rw [leadingBit_eq] at hlt
  norm_num at hlt ⊢
  linarith

/-- A number rounds to one of the next exponent only when that is a power of two. -/
theorem Rounds.of_lt {significand : Nat} {exponent : Int} {v : ℚ}
    (hnormal : Normal significand exponent) (h : Rounds significand exponent v)
    (hleast : exponent ≠ leastExponent) (hsmall : v < 2 ^ (52 + exponent)) :
    significand = leadingBit ∧ (2 * leadingBit - 1 / 2) * 2 ^ (exponent - 1) ≤ v ∧
      v < 2 * leadingBit * 2 ^ (exponent - 1) := by
  have hunit : (0 : ℚ) < 2 ^ exponent := by positivity
  have hprevious : (2 : ℚ) ^ exponent = 2 ^ (exponent - 1) * 2 := by
    rw [zpow_sub_one₀ two_ne_zero]
    ring
  have hleading : (2 : ℚ) ^ (52 + exponent) = leadingBit * 2 ^ exponent := by
    rw [zpow_add₀ two_ne_zero, leadingBit_eq]
    norm_num
  rw [hleading] at hsmall
  obtain rfl : significand = leadingBit := by
    have hreal := lt_of_mul_lt_mul_right (h.bounds.1.trans_lt hsmall) hunit.le
    by_contra hother
    have : (leadingBit : ℚ) + 1 ≤ significand := by
      exact_mod_cast (hnormal.leading.resolve_right hleast).lt_of_ne' hother
    linarith
  have hlow := h.1
  rw [if_pos ⟨rfl, hnormal.least.lt_of_ne' hleast⟩] at hlow
  rw [hprevious] at hlow hsmall
  exact ⟨rfl, by linarith, by linarith⟩

/-- The word nearest to a quotient is that of the number to which the quotient rounds. -/
theorem ofRatio_of_rounds {significand : Nat} {exponent : Int}
    (hnormal : Normal significand exponent) (hpos : 0 < significand) {n d : Nat} (hd : 0 < d)
    (h : Rounds significand exponent ((n : ℚ) / d)) (negative : Bool) :
    ofRatio negative n d = ofDyadic negative significand exponent := by
  have hn : 0 < n := by
    refine Nat.pos_of_ne_zero ?_
    rintro rfl
    simpa using h.pos hpos
  rw [ofRatio, if_neg hn.ne']
  dsimp only
  by_cases hcase : exponent = leastExponent ∨ 2 ^ (52 + exponent) ≤ (n : ℚ) / d
  · rw [eq_ratioExponent hn hd hnormal.least (h.lt hnormal) hcase]
    have hunit : (0 : ℚ) < 2 ^ exponent := by positivity
    have hround : roundHalfEven (scaled n d exponent).1 (scaled n d exponent).2 = significand := by
      obtain ⟨hlow, hhigh, hstrict⟩ := h.bounds
      refine roundHalfEven_of_div (scaled_snd_pos n hd exponent) ?_ ?_ fun hodd => ?_
      · rwa [scaled_div, le_div_iff₀ hunit]
      · rwa [scaled_div, div_le_iff₀ hunit]
      · rw [scaled_div, lt_div_iff₀ hunit, div_lt_iff₀ hunit]
        exact hstrict hodd
    rw [hround, if_neg hnormal.lt.ne]
  · -- Below a power of two the next lower exponent is tried, and rounding goes up to the power.
    obtain ⟨hleast, hsmall⟩ := not_or.1 hcase
    rw [not_le] at hsmall
    obtain ⟨rfl, hlow, hhigh⟩ := h.of_lt hnormal hleast hsmall
    have hunit : (0 : ℚ) < 2 ^ (exponent - 1) := by positivity
    have hexponent : ratioExponent n d = exponent - 1 := by
      have hleast' := hnormal.least.lt_of_ne' hleast
      refine eq_ratioExponent hn hd (by omega) ?_ (Or.inr ?_)
      · rw [show 53 + (exponent - 1) = 52 + exponent by ring]
        exact hsmall
      · refine le_trans ?_ hlow
        rw [zpow_add₀ two_ne_zero]
        refine mul_le_mul_of_nonneg_right ?_ hunit.le
        rw [leadingBit_eq]
        norm_num
    have hround : roundHalfEven (scaled n d (exponent - 1)).1 (scaled n d (exponent - 1)).2 =
        2 * leadingBit := by
      refine roundHalfEven_of_div (scaled_snd_pos n hd _) ?_ ?_ fun hodd => by omega
      · rw [scaled_div, le_div_iff₀ hunit]
        exact_mod_cast hlow
      · rw [scaled_div, div_le_iff₀ hunit]
        refine hhigh.le.trans (mul_le_mul_of_nonneg_right ?_ hunit.le)
        push_cast
        linarith
    rw [hexponent, hround, if_pos rfl, sub_add_cancel]

/-! ## Not-a-numbers -/

/-- Rounding goes up by one at most. -/
theorem roundHalfEven_le (n d : Nat) : roundHalfEven n d ≤ n / d + 1 := by
  unfold roundHalfEven
  dsimp only
  split
  · exact Nat.le_succ _
  split
  · exact le_rfl
  split
  · exact Nat.le_succ _
  · exact le_rfl

/-- The word nearest to a quotient is no not-a-number. -/
theorem value_ofRatio_ne_nan (negative : Bool) (n : Nat) {d : Nat} (hd : 0 < d) :
    (ofRatio negative n d).value ≠ .nan := by
  unfold ofRatio
  split
  · exact value_ofFields_ne_nan (by decide) (by decide) (Or.inr rfl)
  rename_i hn
  dsimp only
  split
  · exact value_ofDyadic_ne_nan (by decide)
  · rename_i hcarry
    refine value_ofDyadic_ne_nan ?_
    have hquotient : (scaled n d (ratioExponent n d)).1 / (scaled n d (ratioExponent n d)).2 <
        2 * leadingBit := by
      rw [div_lt_iff_cast (scaled_snd_pos n hd _), scaled_div, div_lt_iff₀ (by positivity)]
      refine (ratioExponent_spec (Nat.pos_of_ne_zero hn) hd).2.1.trans_le (le_of_eq ?_)
      rw [zpow_add₀ two_ne_zero, leadingBit_eq]
      norm_num
    have hround := roundHalfEven_le (scaled n d (ratioExponent n d)).1
      (scaled n d (ratioExponent n d)).2
    omega

/-- The word nearest to a decimal is no not-a-number. -/
theorem value_ofDecimal_ne_nan (negative : Bool) (digits : Nat) (exponent : Int) :
    (ofDecimal negative digits exponent).value ≠ .nan := by
  unfold ofDecimal
  split
  · exact value_ofFields_ne_nan (by decide) (by decide) (Or.inr rfl)
  dsimp only
  split
  · exact value_infinity_ne_nan negative
  split
  · exact value_ofFields_ne_nan (by decide) (by decide) (Or.inr rfl)
  · exact value_ofRatio_ne_nan negative _ (Nat.pow_pos (by decide))

end Binary64

end DesignTokens
