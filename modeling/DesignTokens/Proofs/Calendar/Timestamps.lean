import DesignTokens.Proofs.Calendar.Days

/-!
# Instants and timestamps

`Moment.instant` counts the microseconds from the start of the calendar to a moment, with the offset
taken off. A moment at an offset has a timestamp exactly when its instant lies in the calendar. The
timestamp can be read back, and gives the instant rounded down to a millisecond. Nothing but the
instant decides about it: `timestamp_by_instant`.
-/

namespace DesignTokens

namespace Moment

variable {t u v : Moment} {date : Date} {offset : Int}

/-- The microseconds from the start of the first year in universal time to a moment. -/
def instant (t : Moment) : Int :=
  t.date.daysBefore * microsecondsPerDay + t.sinceMidnight - t.offset.getD 0

/-- The instant lies in the years of the calendar, in universal time. -/
def InCalendar (instant : Int) : Prop :=
  0 ≤ instant ∧ instant < Date.dayCount * microsecondsPerDay

instance (instant : Int) : Decidable (InCalendar instant) :=
  inferInstanceAs (Decidable (_ ∧ _))

/-- The moment is one of the calendar in universal time. -/
structure Universal (u : Moment) : Prop where
  valid : u.Valid
  offset : u.offset = some 0

/-! ## Instants in universal time -/

/-- A moment lies in its day. -/
theorem Valid.sinceMidnight_bounds (ht : t.Valid) :
    0 ≤ t.sinceMidnight ∧ t.sinceMidnight < microsecondsPerDay := by
  obtain ⟨-, hhour, hminute, hsecond, hmicrosecond, -⟩ := ht
  unfold sinceMidnight microsecondsPerDay
  omega

/-- The time of a day is told by the microseconds since it began. -/
theorem Valid.time_eq (ht : t.Valid) (hu : u.Valid) (h : t.sinceMidnight = u.sinceMidnight) :
    t.hour = u.hour ∧ t.minute = u.minute ∧ t.second = u.second ∧
      t.microsecond = u.microsecond := by
  obtain ⟨-, hhour, hminute, hsecond, hmicrosecond, -⟩ := ht
  obtain ⟨-, hhour', hminute', hsecond', hmicrosecond', -⟩ := hu
  unfold sinceMidnight at h
  omega

theorem Universal.instant_eq (hu : u.Universal) :
    u.instant = u.date.daysBefore * microsecondsPerDay + u.sinceMidnight := by
  rw [instant, hu.offset]
  exact Int.sub_zero _

/-- A moment in universal time lies in the calendar. -/
theorem Universal.inCalendar (hu : u.Universal) : InCalendar u.instant := by
  have hday := hu.valid.1.daysBefore_lt
  have htime := hu.valid.sinceMidnight_bounds
  rw [hu.instant_eq]
  unfold InCalendar microsecondsPerDay at *
  omega

/-- An instant is that of one moment in universal time only. -/
theorem Universal.eq_of_instant (hu : u.Universal) (hv : v.Universal)
    (h : u.instant = v.instant) : u = v := by
  have hutime := hu.valid.sinceMidnight_bounds
  have hvtime := hv.valid.sinceMidnight_bounds
  rw [hu.instant_eq, hv.instant_eq] at h
  have hdays : u.date.daysBefore = v.date.daysBefore := by
    unfold microsecondsPerDay at *
    omega
  have hdate := Date.eq_of_daysBefore hu.valid.1 hv.valid.1 hdays
  have htime : u.sinceMidnight = v.sinceMidnight := by
    rw [hdays] at h
    omega
  obtain ⟨hhour, hminute, hsecond, hmicrosecond⟩ := hu.valid.time_eq hv.valid htime
  have hoffset := hu.offset.trans hv.offset.symm
  cases u
  simp only at hdate hhour hminute hsecond hmicrosecond hoffset
  rw [hdate, hhour, hminute, hsecond, hmicrosecond, hoffset]

/-- The moment a number of microseconds after the start of a day has the instant that this says.
There is none exactly when the instant lies outside the calendar. -/
theorem afterMidnight?_cases (hdate : date.Valid) (microseconds : Int) :
    (∃ u, afterMidnight? date microseconds = some u ∧ u.Universal ∧
        u.instant = date.daysBefore * microsecondsPerDay + microseconds) ∨
      (afterMidnight? date microseconds = none ∧
        ¬ InCalendar (date.daysBefore * microsecondsPerDay + microseconds)) := by
  unfold afterMidnight?
  obtain ⟨day, hday, hvalid, hcount⟩ | ⟨hnone, hout⟩ :=
    Date.addDays?_cases hdate (microseconds / microsecondsPerDay)
  · rw [hday]
    have hzero : -microsecondsPerDay < 0 ∧ 0 < microsecondsPerDay := by decide
    have huniversal : Universal
        { date := day
          hour := (microseconds % microsecondsPerDay).toNat / 3600000000
          minute := (microseconds % microsecondsPerDay).toNat / 60000000 % 60
          second := (microseconds % microsecondsPerDay).toNat / 1000000 % 60
          microsecond := (microseconds % microsecondsPerDay).toNat % 1000000
          offset := some 0 } := by
      refine ⟨⟨hvalid, ?_, ?_, ?_, ?_, hzero⟩, rfl⟩ <;> dsimp only [microsecondsPerDay] <;> omega
    refine Or.inl ⟨_, rfl, huniversal, ?_⟩
    rw [huniversal.instant_eq]
    dsimp only [sinceMidnight, microsecondsPerDay] at hcount ⊢
    omega
  · rw [hnone]
    refine Or.inr ⟨rfl, fun h => hout ?_⟩
    unfold InCalendar microsecondsPerDay at *
    omega

/-- A moment at an offset has its instant in universal time too, unless the instant lies outside the
calendar. -/
theorem utc_cases (ht : t.Valid) (hoffset : t.offset = some offset) :
    (∃ u, t.utc = .ok u ∧ u.Universal ∧ u.instant = t.instant) ∨
      (t.utc = .error .outside ∧ ¬ InCalendar t.instant) := by
  have hinstant : t.instant =
      t.date.daysBefore * microsecondsPerDay + (t.sinceMidnight - offset) := by
    rw [instant, hoffset]
    exact Int.add_sub_assoc _ _ _
  have hutc : t.utc = (t.shift? offset).elim (.error .outside) .ok := by
    rw [utc, hoffset]
  rw [hinstant, hutc, shift?]
  obtain ⟨u, hu, huniversal, hsame⟩ | ⟨hnone, hout⟩ :=
    afterMidnight?_cases ht.1 (t.sinceMidnight - offset)
  · rw [hu]
    exact Or.inl ⟨u, rfl, huniversal, hsame⟩
  · rw [hnone]
    exact Or.inr ⟨rfl, hout⟩

/-! ## Reading timestamps -/

/-- The digits before a mark, and what follows the mark. -/
def numeral? (mark : Char) (cs : List Char) : Option (List Char × List Char) :=
  match cs.dropWhile Char.isDigit with
  | c :: rest => if c = mark then some (cs.takeWhile Char.isDigit, rest) else none
  | [] => none

/-- The digits before each of several marks, of which the last one ends the text. -/
def numerals? : List Char → List Char → Option (List (List Char))
  | [], [] => some []
  | [], _ :: _ => none
  | mark :: marks, cs => do
    let (digits, rest) ← numeral? mark cs
    let more ← numerals? marks rest
    some (digits :: more)

/-- The moment in universal time that a timestamp denotes: six numbers and a fraction of three
digits, each with the mark that follows it. -/
def ofTimestamp? (text : String) : Option Moment :=
  let number (digits : List Char) := Nat.ofDigitChars 10 digits 0
  match numerals? "--T::.Z".toList text.toList with
  | some [year, month, day, hour, minute, second, fraction] =>
    if fraction.length = 3 then
      some
        { date := ⟨number year, number month, number day⟩
          hour := number hour
          minute := number minute
          second := number second
          microsecond := number fraction * 1000
          offset := some 0 }
    else none
  | _ => none

/-- Digits with a mark after them are read up to the mark. -/
theorem numeral?_append {digits : List Char} {mark : Char}
    (hdigits : ∀ c ∈ digits, c.isDigit = true) (hmark : mark.isDigit = false) (rest : List Char) :
    numeral? mark (digits ++ mark :: rest) = some (digits, rest) := by
  have hstop : ¬ mark.isDigit = true := ne_true_of_eq_false hmark
  rw [numeral?, List.dropWhile_append_of_pos hdigits, List.dropWhile_cons_of_neg hstop,
    List.takeWhile_append_of_pos hdigits, List.takeWhile_cons_of_neg hstop, List.append_nil]
  exact if_pos rfl

/-- Numbers that are written with marks after them are read back. -/
theorem numerals?_flatMap {fields : List (List Char × Char)}
    (h : ∀ field ∈ fields, (∀ c ∈ field.1, c.isDigit = true) ∧ field.2.isDigit = false) :
    numerals? (fields.map Prod.snd) (fields.flatMap fun field => field.1 ++ [field.2]) =
      some (fields.map Prod.fst) := by
  induction fields with
  | nil => rfl
  | cons field rest ih =>
      obtain ⟨⟨hdigits, hmark⟩, hrest⟩ := List.forall_mem_cons.1 h
      rw [List.map_cons, List.flatMap_cons, numerals?, List.append_assoc, List.singleton_append,
        numeral?_append hdigits hmark]
      simp only [Option.bind_eq_bind, Option.bind_some, ih hrest, List.map_cons]

/-- The characters of a padded number. -/
def paddedDigits (width n : Nat) : List Char :=
  List.replicate (width - (Nat.toDigits 10 n).length) '0' ++ Nat.toDigits 10 n

theorem isDigit_paddedDigits (width n : Nat) : ∀ c ∈ paddedDigits width n, c.isDigit = true := by
  intro c hc
  obtain hzero | hdigit := List.mem_append.1 hc
  · rw [List.eq_of_mem_replicate hzero]
    rfl
  · exact Nat.isDigit_of_mem_toDigits (by decide) (by decide) hdigit

/-- Leading zeros do not change a number. -/
theorem ofDigitChars_paddedDigits (width n : Nat) :
    Nat.ofDigitChars 10 (paddedDigits width n) 0 = n := by
  rw [paddedDigits, Nat.ofDigitChars_append, Nat.ofDigitChars_replicate_zero, Nat.mul_zero,
    Nat.ofDigitChars_ten_toDigits]

/-- A padded number that is small enough has the width. -/
theorem length_paddedDigits {width n : Nat} (hwidth : 0 < width) (h : n < Nat.pow 10 width) :
    (paddedDigits width n).length = width := by
  have hlength := (Nat.length_toDigits_le_iff (by decide) hwidth).2 h
  rw [paddedDigits, List.length_append, List.length_replicate]
  omega

/-- The numbers of a timestamp with the marks after them. -/
def timestampFields (t : Moment) : List (List Char × Char) :=
  [(paddedDigits 0 t.date.year, '-'), (paddedDigits 2 t.date.month, '-'),
   (paddedDigits 2 t.date.day, 'T'), (paddedDigits 2 t.hour, ':'), (paddedDigits 2 t.minute, ':'),
   (paddedDigits 2 t.second, '.'), (paddedDigits 3 (t.microsecond / 1000), 'Z')]

theorem toList_written (t : Moment) :
    (written t).toList = t.timestampFields.flatMap fun field => field.1 ++ [field.2] := by
  have hyear (n : Nat) : paddedDigits 0 n = Nat.toDigits 10 n := by
    simp [paddedDigits]
  have hpadded (width n : Nat) : (padded width n).toList = paddedDigits width n :=
    String.toList_ofList
  simp [written, timestampFields, hyear, hpadded]

/-- A timestamp denotes its moment in universal time up to the microseconds of a millisecond. -/
theorem ofTimestamp?_written (hu : u.Universal) :
    ofTimestamp? (written u) =
      some { u with microsecond := u.microsecond / 1000 * 1000 } := by
  have hdigits : ∀ field ∈ u.timestampFields,
      (∀ c ∈ field.1, c.isDigit = true) ∧ field.2.isDigit = false := by
    intro field hfield
    simp only [timestampFields, List.mem_cons, List.not_mem_nil, or_false] at hfield
    rcases hfield with rfl | rfl | rfl | rfl | rfl | rfl | rfl <;>
      exact ⟨isDigit_paddedDigits _ _, rfl⟩
  have hread : numerals? "--T::.Z".toList (written u).toList =
      some (u.timestampFields.map Prod.fst) := by
    rw [toList_written]
    exact numerals?_flatMap hdigits
  have hlength : (paddedDigits 3 (u.microsecond / 1000)).length = 3 := by
    have hmicrosecond : u.microsecond < 1000000 := hu.valid.2.2.2.2.1
    have hsmall : u.microsecond / 1000 < 1000 := by omega
    exact length_paddedDigits (by decide) hsmall
  rw [ofTimestamp?, hread]
  simp only [timestampFields, List.map_cons, List.map_nil, hlength, if_true,
    ofDigitChars_paddedDigits, hu.offset]

/-- A timestamp denotes the instant of its moment, rounded down to a millisecond. -/
theorem exists_ofTimestamp?_written (hu : u.Universal) :
    ∃ v, ofTimestamp? (written u) = some v ∧ v.Universal ∧
      v.instant = u.instant / 1000 * 1000 := by
  have hrounded : Universal { u with microsecond := u.microsecond / 1000 * 1000 } := by
    obtain ⟨⟨hdate, hhour, hminute, hsecond, hmicrosecond, hoffset⟩, huniversal⟩ := hu
    exact ⟨⟨hdate, hhour, hminute, hsecond, by dsimp only; omega, hoffset⟩, huniversal⟩
  refine ⟨_, ofTimestamp?_written hu, hrounded, ?_⟩
  rw [hrounded.instant_eq, hu.instant_eq]
  dsimp only [sinceMidnight, microsecondsPerDay]
  omega

/-- A moment at an offset has a timestamp exactly when its instant lies in the calendar, and is
refused as one outside of it otherwise. The timestamp denotes the instant, rounded down to a
millisecond. Moments of the same instant have the same timestamp. -/
theorem timestamp_by_instant (ht : t.Valid) (hoffset : t.offset = some offset) :
    ((∃ text, t.timestamp = .ok text) ↔ InCalendar t.instant) ∧
      (¬ InCalendar t.instant → t.timestamp = .error .outside) ∧
      (∀ text, t.timestamp = .ok text → ∃ u, ofTimestamp? text = some u ∧ u.Universal ∧
        u.instant = t.instant / 1000 * 1000) ∧
      ∀ (s : Moment) (other : Int), s.Valid → s.offset = some other → s.instant = t.instant →
        s.timestamp = t.timestamp := by
  have hstamp (s : Moment) : s.timestamp = s.utc.map written := rfl
  obtain ⟨u, hutc, hu, hinstant⟩ | ⟨hutc, hout⟩ := utc_cases ht hoffset
  · have hin : InCalendar t.instant := hinstant ▸ hu.inCalendar
    have htext : t.timestamp = .ok (written u) := by
      rw [hstamp, hutc]
      rfl
    refine ⟨⟨fun _ => hin, fun _ => ⟨_, htext⟩⟩, fun h => absurd hin h, fun text h => ?_,
      fun s other hs hother hsame => ?_⟩
    · obtain rfl := Except.ok.inj (htext.symm.trans h)
      rw [← hinstant]
      exact exists_ofTimestamp?_written hu
    · obtain ⟨v, hv, huniversal, hv_instant⟩ | ⟨-, hout⟩ := utc_cases hs hother
      · -- Both are the one moment in universal time that has the instant.
        obtain rfl := hu.eq_of_instant huniversal
          (hinstant.trans (hsame.symm.trans hv_instant.symm))
        rw [hstamp, hv, hstamp, hutc]
      · rw [hsame] at hout
        exact absurd hin hout
  · have hrefused : t.timestamp = .error .outside := by
      rw [hstamp, hutc]
      rfl
    refine ⟨⟨fun ⟨text, h⟩ => ?_, fun h => absurd h hout⟩, fun _ => hrefused, fun text h => ?_,
      fun s other hs hother hsame => ?_⟩
    · cases hrefused.symm.trans h
    · cases hrefused.symm.trans h
    · obtain ⟨v, -, huniversal, hv_instant⟩ | ⟨hv, -⟩ := utc_cases hs hother
      · have hin := huniversal.inCalendar
        rw [hv_instant, hsame] at hin
        exact absurd hin hout
      · rw [hrefused, hstamp, hv]
        rfl

/-- An instant of a leap day has one timestamp at two offsets, of which one is no whole number of
minutes. The calendar begins after the first midnight of a place that is a microsecond ahead. -/
theorem leap_day_timestamp :
    let west : Moment := ⟨⟨2000, 2, 28⟩, 22, 30, 0, 678901, some (-10800000000)⟩
    let east : Moment := ⟨⟨2000, 2, 29⟩, 7, 0, 15, 678901, some 19815000000⟩
    let ahead : Moment := ⟨⟨1, 1, 1⟩, 0, 0, 0, 0, some 1⟩
    west.timestamp = .ok "2000-02-29T01:30:00.678Z" ∧ east.timestamp = west.timestamp ∧
      (∃ u, ofTimestamp? "2000-02-29T01:30:00.678Z" = some u ∧ u.Universal ∧
        u.instant = west.instant / 1000 * 1000) ∧
      ahead.timestamp = .error .outside := by
  intro west east ahead
  have htext : west.timestamp = .ok "2000-02-29T01:30:00.678Z" := by decide +kernel
  obtain ⟨-, -, hread, hsame⟩ := timestamp_by_instant (t := west) (by decide) rfl
  obtain ⟨-, hrefused, -⟩ := timestamp_by_instant (t := ahead) (by decide) rfl
  exact ⟨htext, hsame east _ (by decide) rfl (by decide), hread _ htext, hrefused (by decide)⟩

end Moment

end DesignTokens
