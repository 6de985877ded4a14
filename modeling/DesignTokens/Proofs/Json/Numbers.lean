import DesignTokens.Json.Printer
import DesignTokens.Json.Reader
import DesignTokens.Proofs.Number.Shortest

/-!
# Reading written numbers

A written integer is read back (`readScalar_int`), and so is a written floating-point number
(`readScalar_real`): its text denotes the shortest decimal, which rounds to the number. What follows
must not be something that the number could go on with, such as another digit.
-/

namespace DesignTokens

namespace Json

/-! ## Digits -/

/-- No digit comes first. -/
def NoDigit (cs : List Char) : Prop :=
  ∀ c ∈ cs.head?, c.isDigit = false

/-- Nothing comes first that a number could go on with. -/
def NumberEnds (cs : List Char) : Prop :=
  ∀ c ∈ cs.head?, c.isDigit = false ∧ c ≠ '.' ∧ c ≠ 'e' ∧ c ≠ 'E'

/-- All characters are digits. -/
def Digits (cs : List Char) : Prop :=
  ∀ c ∈ cs, c.isDigit = true

variable {digits whole fraction rest : List Char}

theorem Digits.append {first second : List Char} (hfirst : Digits first) (hsecond : Digits second) :
    Digits (first ++ second) :=
  List.forall_mem_append.2 ⟨hfirst, hsecond⟩

theorem digits_zeros (count : Nat) : Digits (List.replicate count '0') := by
  intro c hc
  rw [List.eq_of_mem_replicate hc]
  rfl

theorem digits_toDigits (n : Nat) : Digits (Nat.toDigits 10 n) :=
  fun _ hc => Nat.isDigit_of_mem_toDigits (by decide) (by decide) hc

theorem NumberEnds.noDigit (h : NumberEnds rest) : NoDigit rest :=
  fun c hc => (h c hc).1

/-- The value of digits is that of the standard library. -/
theorem natOfDigits_eq (digits : List Char) :
    natOfDigits digits = Nat.ofDigitChars 10 digits 0 := by
  rw [Nat.ofDigitChars_eq_foldl, natOfDigits]
  simp only [Nat.mul_comm]

theorem natOfDigits_append (first second : List Char) :
    natOfDigits (first ++ second) =
      10 ^ second.length * natOfDigits first + natOfDigits second := by
  rw [natOfDigits_eq, natOfDigits_eq, natOfDigits_eq, Nat.ofDigitChars_append,
    Nat.ofDigitChars_eq_ofDigitChars_zero]

@[simp] theorem natOfDigits_toDigits (n : Nat) : natOfDigits (Nat.toDigits 10 n) = n := by
  rw [natOfDigits_eq, Nat.ofDigitChars_ten_toDigits]

@[simp] theorem natOfDigits_zeros (count : Nat) : natOfDigits (List.replicate count '0') = 0 := by
  rw [natOfDigits_eq, Nat.ofDigitChars_replicate_zero, Nat.mul_zero]

theorem natOfDigits_zeros_append (count : Nat) (digits : List Char) :
    natOfDigits (List.replicate count '0' ++ digits) = natOfDigits digits := by
  rw [natOfDigits_append, natOfDigits_zeros, Nat.mul_zero, Nat.zero_add]

/-- The digits before something else are read whole. -/
theorem spanDigits_append (hdigits : Digits digits) (hrest : NoDigit rest) :
    spanDigits (digits ++ rest) = (digits, rest) := by
  have hnone : rest.takeWhile Char.isDigit = [] ∧ rest.dropWhile Char.isDigit = rest := by
    cases rest with
    | nil => exact ⟨rfl, rfl⟩
    | cons c cs =>
        have hc : c.isDigit = false := hrest c rfl
        simp [hc]
  rw [spanDigits, List.span_eq_takeWhile_dropWhile, List.takeWhile_append_of_pos hdigits,
    List.dropWhile_append_of_pos hdigits, hnone.1, hnone.2, List.append_nil]

/-! ## The parts of a number -/

/-- The digits are the whole part of a number. -/
structure IsWhole (whole : List Char) : Prop where
  digits : Digits whole
  ne_nil : whole ≠ []
  zero : ∀ cs, whole = '0' :: cs → cs = []

theorem wholePart?_append (hwhole : IsWhole whole) (hrest : NoDigit rest) :
    wholePart? (whole ++ rest) = some (whole, rest) := by
  cases whole with
  | nil => exact (hwhole.ne_nil rfl).elim
  | cons c cs =>
      rw [List.cons_append, wholePart?]
      by_cases hzero : c = '0'
      · subst hzero
        rw [if_pos rfl, hwhole.zero cs rfl]
        rfl
      · rw [if_neg hzero, if_pos (hwhole.digits c List.mem_cons_self), ← List.cons_append,
          spanDigits_append hwhole.digits hrest]

theorem fractionPart_append (hdigits : Digits fraction) (hne : fraction ≠ [])
    (hrest : NoDigit rest) : fractionPart ('.' :: (fraction ++ rest)) = (fraction, rest) := by
  rw [fractionPart, spanDigits_append hdigits hrest]
  cases fraction with
  | nil => exact (hne rfl).elim
  | cons c cs => rfl

theorem fractionPart_of_ne (h : ∀ c ∈ rest.head?, c ≠ '.') : fractionPart rest = ([], rest) := by
  unfold fractionPart
  split
  · exact (h '.' rfl rfl).elim
  · rfl

theorem exponentPart?_eq_none (h : NumberEnds rest) : exponentPart? rest = none := by
  cases rest with
  | nil => rfl
  | cons c cs =>
      obtain ⟨-, -, he, hE⟩ := h c rfl
      rw [exponentPart?, if_neg (not_or.2 ⟨he, hE⟩)]

/-- An exponent with its sign is read back. -/
theorem exponentPart?_signed {negative : Bool} (hdigits : Digits digits)
    (hne : digits ≠ []) (hrest : NoDigit rest) :
    exponentPart? ('e' :: (if negative then '-' else '+') :: (digits ++ rest)) =
      some (if negative then -(natOfDigits digits : ℤ) else natOfDigits digits, rest) := by
  have hsign : exponentSign ((if negative then '-' else '+') :: (digits ++ rest)) =
      (negative, digits ++ rest) := by
    cases negative <;> rfl
  rw [exponentPart?, if_pos (Or.inl rfl), hsign]
  dsimp only
  rw [spanDigits_append hdigits hrest]
  cases digits with
  | nil => exact (hne rfl).elim
  | cons c cs => rfl

/-- A written exponent is read back. -/
theorem exponentPart?_exponentMark (width : Nat) (exponent : Int) (hrest : NoDigit rest) :
    exponentPart? (Decimal.exponentMark width exponent ++ rest) = some (exponent, rest) := by
  let ds := Nat.toDigits 10 exponent.natAbs
  let padded := List.replicate (width - ds.length) '0' ++ ds
  have hdigits : Digits padded := (digits_zeros _).append (digits_toDigits _)
  have hne : padded ≠ [] := fun h => Nat.toDigits_ne_nil (List.append_eq_nil_iff.1 h).2
  have hvalue : natOfDigits padded = exponent.natAbs := by
    rw [natOfDigits_zeros_append, natOfDigits_toDigits]
  have hmark : Decimal.exponentMark width exponent ++ rest =
      'e' :: (if decide (exponent < 0) then '-' else '+') :: (padded ++ rest) := by
    simp only [decide_eq_true_eq]
    rfl
  rw [hmark, exponentPart?_signed hdigits hne hrest, hvalue]
  congr 2
  simp only [decide_eq_true_eq]
  split <;> omega

/-! ## Magnitudes -/

variable {negative : Bool}

theorem readMagnitude?_whole (hwhole : IsWhole whole) (hrest : NumberEnds rest) :
    readMagnitude? negative (whole ++ rest) =
      some (.int (if negative then -(natOfDigits whole : ℤ) else natOfDigits whole), rest) := by
  rw [readMagnitude?, wholePart?_append hwhole hrest.noDigit]
  simp only [Option.bind_eq_bind, Option.bind_some]
  rw [fractionPart_of_ne fun c hc => (hrest c hc).2.1, exponentPart?_eq_none hrest,
    List.append_nil]

theorem readMagnitude?_point (hwhole : IsWhole whole) (hdigits : Digits fraction)
    (hne : fraction ≠ []) (hrest : NumberEnds rest) :
    readMagnitude? negative (whole ++ '.' :: (fraction ++ rest)) =
      some (.real (.ofDecimal negative (natOfDigits (whole ++ fraction)) (-fraction.length)),
        rest) := by
  have hpoint : NoDigit ('.' :: (fraction ++ rest)) := by
    rintro c ⟨⟩
    rfl
  rw [readMagnitude?, wholePart?_append hwhole hpoint]
  simp only [Option.bind_eq_bind, Option.bind_some]
  rw [fractionPart_append hdigits hne hrest.noDigit, exponentPart?_eq_none hrest]
  cases fraction with
  | nil => exact (hne rfl).elim
  | cons c cs => rfl

/-- The text of a fraction: nothing when there is none. -/
def pointed (fraction : List Char) : List Char :=
  if fraction = [] then [] else '.' :: fraction

theorem readMagnitude?_exponent {exponent : Int} {mark : List Char} (hwhole : IsWhole whole)
    (hdigits : Digits fraction) (hmark : mark.head? = some 'e')
    (hexponent : exponentPart? mark = some (exponent, rest)) :
    readMagnitude? negative (whole ++ (pointed fraction ++ mark)) =
      some (.real (.ofDecimal negative (natOfDigits (whole ++ fraction))
        (exponent - fraction.length)), rest) := by
  have hmarkEnds : NoDigit mark := by
    intro c hc
    rw [hmark] at hc
    cases hc
    rfl
  have hstart : NoDigit (pointed fraction ++ mark) := by
    unfold pointed
    split
    · exact hmarkEnds
    · rintro c ⟨⟩
      rfl
  have hfraction : fractionPart (pointed fraction ++ mark) = (fraction, mark) := by
    unfold pointed
    split
    · rename_i hnil
      rw [hnil]
      refine fractionPart_of_ne fun c hc => ?_
      rw [List.nil_append, hmark] at hc
      cases hc
      decide
    · rename_i hne
      exact fractionPart_append hdigits hne hmarkEnds
  rw [readMagnitude?, wholePart?_append hwhole hstart]
  simp only [Option.bind_eq_bind, Option.bind_some]
  rw [hfraction, hexponent]
  cases fraction <;> rfl

/-! ## Written decimals -/

/-- The digits of a positive number do not start with zero. -/
theorem toDigits_ne_zero_cons {n : Nat} (hn : n ≠ 0) (cs : List Char) :
    Nat.toDigits 10 n ≠ '0' :: cs := by
  induction n using Nat.strong_induction_on generalizing cs with
  | _ n ih =>
      by_cases hsmall : n < 10
      · rw [Nat.toDigits_of_lt_base hsmall]
        exact fun h => hn (Nat.digitChar_eq_zero.1 (List.cons.inj h).1)
      · rw [Nat.toDigits_of_base_le (by decide) (not_lt.1 hsmall)]
        intro h
        obtain ⟨c, front, hfront⟩ := List.exists_cons_of_ne_nil (Nat.toDigits_ne_nil (n := n / 10)
          (b := 10))
        rw [hfront, List.cons_append] at h
        rw [(List.cons.inj h).1] at hfront
        exact ih (n / 10) (by omega) (by omega) front hfront

/-- Digits that do not start with zero are a whole part. -/
theorem isWhole_of_ne_zero (hdigits : Digits digits) (hne : digits ≠ [])
    (hzero : ∀ cs, digits ≠ '0' :: cs) : IsWhole digits :=
  ⟨hdigits, hne, fun _ h => (hzero _ h).elim⟩

theorem isWhole_zero : IsWhole ['0'] where
  digits := digits_zeros 1
  ne_nil := List.cons_ne_nil _ _
  zero _ h := (List.cons.inj h).2.symm

/-- A start of such digits is a whole part, with any digits after it. -/
theorem isWhole_take_append (hdigits : Digits digits) (hne : digits ≠ [])
    (hzero : ∀ cs, digits ≠ '0' :: cs) {point : Nat} (hpoint : 0 < point) (hrest : Digits rest) :
    IsWhole (digits.take point ++ rest) := by
  obtain ⟨c, cs, rfl⟩ := List.exists_cons_of_ne_nil hne
  obtain ⟨point, rfl⟩ := Nat.exists_eq_succ_of_ne_zero hpoint.ne'
  refine isWhole_of_ne_zero (Digits.append (fun d hd => hdigits d (List.mem_of_mem_take hd)) hrest)
    (List.cons_ne_nil _ _) fun _ h => ?_
  rw [(List.cons.inj h).1] at hzero
  exact hzero cs rfl

theorem isWhole_toDigits (n : Nat) : IsWhole (Nat.toDigits 10 n) := by
  by_cases hn : n = 0
  · rw [hn]
    exact isWhole_zero
  · exact isWhole_of_ne_zero (digits_toDigits n) Nat.toDigits_ne_nil
      (toDigits_ne_zero_cons hn)

variable {x : Decimal}

/-- A digit comes first. -/
def DigitFirst (cs : List Char) : Prop :=
  ∃ c rest, cs = c :: rest ∧ c.isDigit = true

theorem IsWhole.digitFirst (h : IsWhole whole) (rest : List Char) : DigitFirst (whole ++ rest) := by
  obtain ⟨c, cs, rfl⟩ := List.exists_cons_of_ne_nil h.ne_nil
  exact ⟨c, cs ++ rest, rfl, h.digits c List.mem_cons_self⟩

/-- A text without a sign is read, whatever follows it, as the floating-point number nearest to a
decimal that denotes `v`. -/
structure ReadsDecimal (text : List Char) (v : ℚ) : Prop where
  first : DigitFirst text
  reads : ∃ (digits : Nat) (e : Int), digits * 10 ^ e = v ∧ ∀ negative rest, NumberEnds rest →
    readMagnitude? negative (text ++ rest) = some (.real (.ofDecimal negative digits e), rest)

/-- Digits with a point among them are read as the decimal that they denote. -/
theorem readsDecimal_point (hwhole : IsWhole whole) (hfraction : Digits fraction)
    (hne : fraction ≠ []) {v : ℚ}
    (hv : natOfDigits (whole ++ fraction) * (10 : ℚ) ^ (-fraction.length : ℤ) = v) :
    ReadsDecimal (whole ++ '.' :: fraction) v := by
  refine ⟨hwhole.digitFirst _, _, _, hv, fun negative rest hrest => ?_⟩
  rw [List.append_assoc, List.cons_append]
  exact readMagnitude?_point hwhole hfraction hne hrest

/-- A decimal written with a point is read back. -/
theorem readsDecimal_positional (hx : x.digits ≠ 0) : ReadsDecimal x.positional x.value := by
  have hdigits : Digits x.characters := digits_toDigits x.digits
  have hvalue : natOfDigits x.characters = x.digits := natOfDigits_toDigits x.digits
  have hleading : x.leading + 1 = x.exponent + x.characters.length := by
    rw [Decimal.leading]
    ring
  unfold Decimal.positional
  dsimp only
  rw [hleading]
  split
  · -- All digits come after the point.
    rename_i hpoint
    let fraction := List.replicate (-(x.exponent + x.characters.length)).toNat '0' ++ x.characters
    have hne : fraction ≠ [] := fun h => Nat.toDigits_ne_nil (List.append_eq_nil_iff.1 h).2
    refine readsDecimal_point isWhole_zero ((digits_zeros _).append hdigits) hne ?_
    have hexponent : -(fraction.length : ℤ) = x.exponent := by
      rw [List.length_append, List.length_replicate]
      omega
    have hnumber : natOfDigits (['0'] ++ fraction) = x.digits :=
      (natOfDigits_zeros_append 1 fraction).trans ((natOfDigits_zeros_append _ _).trans hvalue)
    rw [hexponent, hnumber, Decimal.value]
  rename_i hpoint
  obtain ⟨point, hnat⟩ : ∃ point : ℕ, x.exponent + x.characters.length = point :=
    Int.eq_ofNat_of_zero_le (by omega)
  have hpositive : 0 < point := by omega
  have hzero := toDigits_ne_zero_cons hx
  rw [hnat, Int.toNat_natCast]
  obtain hall | hsome := le_or_gt x.characters.length point
  · -- All digits come before the point, with zeros after them.
    have hwhole : IsWhole (x.characters ++ List.replicate (point - x.characters.length) '0') := by
      rw [← List.take_of_length_le hall]
      exact isWhole_take_append hdigits Nat.toDigits_ne_nil hzero hpositive (digits_zeros _)
    rw [List.take_of_length_le hall, List.drop_eq_nil_of_le hall, if_pos List.isEmpty_nil]
    refine readsDecimal_point hwhole (digits_zeros 1) (List.cons_ne_nil _ _) ?_
    have hexponent : x.exponent = (point - x.characters.length : ℕ) := by omega
    rw [natOfDigits_append, natOfDigits_append, hvalue, natOfDigits_zeros, natOfDigits_zeros,
      Decimal.value, hexponent, zpow_natCast, List.length_replicate, List.length_replicate]
    norm_num
    ring
  · -- The point stands among the digits.
    have hwhole : IsWhole (x.characters.take point) := by
      rw [← List.append_nil (x.characters.take point)]
      exact isWhole_take_append hdigits Nat.toDigits_ne_nil hzero hpositive (digits_zeros 0)
    have hne : x.characters.drop point ≠ [] := by
      rw [Ne, List.drop_eq_nil_iff]
      omega
    rw [Nat.sub_eq_zero_of_le hsome.le, List.replicate_zero, List.append_nil,
      if_neg (mt List.isEmpty_iff.1 hne)]
    refine readsDecimal_point hwhole (fun d hd => hdigits d (List.mem_of_mem_drop hd)) hne ?_
    rw [List.take_append_drop, hvalue, List.length_drop, Decimal.value]
    congr 2
    omega

/-- A decimal written with an exponent is read back. -/
theorem readsDecimal_scientific (width : Nat) (hx : x.digits ≠ 0) :
    ReadsDecimal (x.scientific width) x.value := by
  have hdigits : Digits x.characters := digits_toDigits x.digits
  have hvalue : natOfDigits x.characters = x.digits := natOfDigits_toDigits x.digits
  obtain ⟨c, fraction, hcharacters⟩ := List.exists_cons_of_ne_nil
    (Nat.toDigits_ne_nil (n := x.digits) (b := 10))
  change x.characters = c :: fraction at hcharacters
  have htext : x.scientific width =
      [c] ++ (pointed fraction ++ Decimal.exponentMark width x.leading) := by
    rw [Decimal.scientific, hcharacters]
    cases fraction <;> rfl
  have hwhole : IsWhole [c] := by
    have htake := isWhole_take_append hdigits Nat.toDigits_ne_nil (toDigits_ne_zero_cons hx)
      (Nat.succ_pos 0) (digits_zeros 0)
    rw [hcharacters] at htake
    exact htake
  have hfraction : Digits fraction := fun d hd =>
    hdigits d (hcharacters ▸ List.mem_cons_of_mem c hd)
  rw [htext]
  refine ⟨hwhole.digitFirst _, natOfDigits ([c] ++ fraction), x.leading - fraction.length, ?_,
    fun negative rest hrest => ?_⟩
  · have hlength : x.characters.length = fraction.length + 1 := by
      rw [hcharacters, List.length_cons]
    rw [List.singleton_append, ← hcharacters, hvalue, Decimal.value, Decimal.leading, hlength]
    congr 2
    push_cast
    ring
  · rw [List.append_assoc, List.append_assoc]
    exact readMagnitude?_exponent hwhole hfraction rfl
      (exponentPart?_exponentMark width x.leading hrest.noDigit)

/-- A written decimal is read back. -/
theorem readsDecimal_renderDecimal (layout : Layout) (hx : x.digits ≠ 0) :
    ReadsDecimal (layout.renderDecimal x) x.value := by
  unfold Layout.renderDecimal
  split
  · exact readsDecimal_positional hx
  · exact readsDecimal_scientific _ hx

/-! ## Numbers with signs -/

/-- A number with its sign. -/
def signed (negative : Bool) (text : List Char) : List Char :=
  if negative then '-' :: text else text

@[simp] theorem signed_append (negative : Bool) (text rest : List Char) :
    signed negative text ++ rest = signed negative (text ++ rest) := by
  cases negative <;> rfl

/-- No word comes first where another character than its own does. -/
theorem afterWord?_eq_none {word : String} {c d : Char} {ds rest : List Char} (front : List Char)
    (hword : word.toList = front ++ d :: ds) (hne : d ≠ c) :
    afterWord? word (front ++ c :: rest) = none := by
  rw [afterWord?, hword, if_neg]
  rw [List.isPrefixOf_iff_prefix, List.prefix_append_right_inj, List.cons_prefix_cons]
  exact fun h => hne h.1

/-- No word starts as a number does. -/
theorem readWord?_eq_none {cs : List Char} (h : DigitFirst cs) (negative : Bool) :
    readWord? (signed negative cs) = none := by
  obtain ⟨c, cs, rfl, hc⟩ := h
  have hne {d : Char} (hd : d.isDigit = false) : d ≠ c := by
    rintro rfl
    rw [hc] at hd
    cases hd
  refine List.findSome?_eq_none_iff.2 fun word hword => Option.map_eq_none_iff.2 ?_
  simp only [words, List.mem_cons, List.not_mem_nil, or_false] at hword
  cases negative with
  | false =>
      rcases hword with rfl | rfl | rfl | rfl | rfl | rfl <;>
        exact afterWord?_eq_none [] rfl (hne rfl)
  | true =>
      rcases hword with rfl | rfl | rfl | rfl | rfl | rfl
      · exact afterWord?_eq_none [] rfl (by decide)
      · exact afterWord?_eq_none [] rfl (by decide)
      · exact afterWord?_eq_none [] rfl (by decide)
      · exact afterWord?_eq_none [] rfl (by decide)
      · exact afterWord?_eq_none [] rfl (by decide)
      · exact afterWord?_eq_none ['-'] rfl (hne rfl)

/-- A number with its sign is read as its magnitude is. -/
theorem readScalar_signed {cs : List Char} {reading : Json × List Char} (hfirst : DigitFirst cs)
    (h : readMagnitude? negative cs = some reading) :
    readScalar (signed negative cs) = .ok reading := by
  have hnumber : readNumber? (signed negative cs) = some reading := by
    obtain ⟨c, cs, rfl, hc⟩ := hfirst
    cases negative with
    | true => exact h
    | false =>
        rw [← h]
        unfold readNumber? signed
        split
        · rename_i heq
          cases heq
          cases hc
        · rfl
  rw [readScalar, readWord?_eq_none hfirst negative, hnumber]
  rfl

/-- An integer is written with its sign. -/
theorem toList_toString_int (n : Int) :
    (toString n).toList = signed (decide (n < 0)) (Nat.toDigits 10 n.natAbs) := by
  cases n with
  | ofNat m =>
      have hsign : ¬ Int.ofNat m < 0 := Int.not_lt.2 (Int.natCast_nonneg m)
      rw [decide_eq_false hsign, Int.toString_eq_repr]
      exact (congrArg String.toList Nat.repr_eq_ofList_toDigits).trans String.toList_ofList
  | negSucc m =>
      rw [decide_eq_true (Int.negSucc_lt_zero m), Int.toString_eq_repr]
      show ("-" ++ (m + 1).repr).toList = '-' :: Nat.toDigits 10 (m + 1)
      rw [String.toList_append, Nat.repr_eq_ofList_toDigits]
      exact congrArg ('-' :: ·) String.toList_ofList

/-- A written integer is read back. -/
theorem readScalar_int (n : Int) (hrest : NumberEnds rest) :
    readScalar ((toString n).toList ++ rest) = .ok (.int n, rest) := by
  have hread :
      readMagnitude? (decide (n < 0)) (Nat.toDigits 10 n.natAbs ++ rest) = some (_, rest) :=
    readMagnitude?_whole (isWhole_toDigits n.natAbs) hrest
  have hvalue : (if decide (n < 0) = true then -(n.natAbs : ℤ) else n.natAbs) = n := by
    simp only [decide_eq_true_eq]
    split <;> omega
  rw [natOfDigits_toDigits, hvalue] at hread
  rw [toList_toString_int, signed_append]
  exact readScalar_signed ((isWhole_toDigits _).digitFirst rest) hread

/-! ## Floating-point numbers -/

theorem DigitFirst.append {cs : List Char} (h : DigitFirst cs) (rest : List Char) :
    DigitFirst (cs ++ rest) := by
  obtain ⟨c, cs, rfl, hc⟩ := h
  exact ⟨c, cs ++ rest, rfl, hc⟩

/-- A zero is read with its sign. -/
theorem readScalar_zero (hrest : NumberEnds rest) :
    readScalar (signed negative (Decimal.positional ⟨0, 0⟩) ++ rest) =
      .ok (.real (.zero negative), rest) := by
  have hpositional : Decimal.positional ⟨0, 0⟩ = ['0'] ++ '.' :: ['0'] := by decide
  have hread : readMagnitude? negative (['0'] ++ '.' :: (['0'] ++ rest)) = some (_, rest) :=
    readMagnitude?_point isWhole_zero (digits_zeros 1) (List.cons_ne_nil _ _) hrest
  have hzero : natOfDigits (['0'] ++ ['0']) = 0 := natOfDigits_zeros 2
  rw [hzero, Binary64.ofDecimal_zero] at hread
  rw [hpositional, signed_append]
  exact readScalar_signed (isWhole_zero.digitFirst _) hread

/-- The shortest decimal of a number is read as the number. -/
theorem readScalar_shortest {significand : Nat} {exponent : Int}
    (hnormal : Binary64.Normal significand exponent) (hpos : 0 < significand)
    (hrest : NumberEnds rest) :
    readScalar (signed negative
        (Layout.document.renderDecimal (Binary64.shortest significand exponent)) ++ rest) =
      .ok (.real (.ofDyadic negative significand exponent), rest) := by
  have hrounds := RoundingInterval.shortest_rounds hnormal hpos
  have hdigits : (Binary64.shortest significand exponent).digits ≠ 0 := by
    intro hnone
    have hzero := hrounds.pos hpos
    rw [Decimal.value, hnone, Nat.cast_zero, zero_mul] at hzero
    exact lt_irrefl _ hzero
  obtain ⟨hfirst, digits, e, hdecimal, hreads⟩ :=
    readsDecimal_renderDecimal Layout.document hdigits
  rw [← hdecimal] at hrounds
  have hread := hreads negative rest hrest
  rw [Binary64.ofDecimal_of_rounds hnormal hpos hrounds] at hread
  rw [signed_append]
  exact readScalar_signed (hfirst.append rest) hread

/-- A written floating-point number is read back. Of the not-a-numbers this is the quiet one. -/
theorem readScalar_real {x : Binary64} (hx : x.Canonical) (hrest : NumberEnds rest) :
    readScalar ((x.render .document).toList ++ rest) = .ok (.real x, rest) := by
  have htext (negative : Bool) (text : List Char) :
      (if negative = true then "-" ++ String.ofList text else String.ofList text).toList =
        signed negative text := by
    cases negative <;> simp [signed]
  unfold Binary64.render
  dsimp only
  cases hvalue : x.value with
  | nan =>
      obtain rfl := hx hvalue
      rfl
  | infinity negative =>
      obtain rfl := Binary64.eq_infinity_of_value hvalue
      cases negative <;> rfl
  | finite negative significand exponent =>
      obtain ⟨hnormal, rfl⟩ := Binary64.eq_ofDyadic_of_value hvalue
      dsimp only
      by_cases hzero : significand = 0
      · rw [if_pos hzero, htext, readScalar_zero hrest, hzero, Binary64.ofDyadic_zero]
      · rw [if_neg hzero, htext, readScalar_shortest hnormal (Nat.pos_of_ne_zero hzero) hrest]

end Json

end DesignTokens
