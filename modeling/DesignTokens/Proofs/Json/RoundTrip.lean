import DesignTokens.Proofs.Json.Numbers
import DesignTokens.Proofs.Json.Readable
import DesignTokens.Proofs.Json.Strings
import Mathlib.Data.List.TakeWhile

/-!
# Reading written documents

A readable document is read back from its text with one item per line, in either character set and
with blanks after it: `read_pretty`. Its brackets and separators are followed step by step, each
list by induction on its items, and every value is read back whatever follows it that is no part of
a number (`ReadsBack`).
-/

namespace DesignTokens

namespace Json

variable {fuel : Nat} {cs rest : List Char} {charset : Charset} {depth : Nat}

/-! ## Scalars -/

/-- What starts a value, and no string, list or object. -/
structure ScalarFirst (c : Char) : Prop where
  blank : isBlankChar c = false
  quote : c ≠ '"'
  opening : c ≠ '[' ∧ c ≠ '\x7b'
  closing : c ≠ ']'

/-- A scalar does not start as anything else does. -/
theorem scalarFirst_of_readScalar {reading : Json × List Char} (h : readScalar cs = .ok reading) :
    ∃ c rest, cs = c :: rest ∧ ScalarFirst c := by
  cases cs with
  | nil => cases h
  | cons c rest =>
      refine ⟨c, rest, rfl, ?_, ?_, ⟨?_, ?_⟩, ?_⟩
      · rw [Bool.eq_false_iff]
        intro hblank
        simp only [isBlankChar, Bool.or_eq_true, beq_iff_eq, or_assoc] at hblank
        rcases hblank with rfl | rfl | rfl | rfl <;> cases h
      all_goals
        rintro rfl
        cases h

/-- A scalar is a value. -/
theorem readValue_of_readScalar {reading : Json × List Char} (h : readScalar cs = .ok reading) :
    readValue (fuel + 1) cs = .ok reading := by
  obtain ⟨c, rest, rfl, hfirst⟩ := scalarFirst_of_readScalar h
  rw [readValue]
  · exact h
  · exact fun _ => by
      rintro ⟨⟩
      exact hfirst.quote rfl
  · exact fun _ => by
      rintro ⟨⟩
      exact hfirst.opening.2 rfl
  · exact fun _ => by
      rintro ⟨⟩
      exact hfirst.opening.1 rfl

/-! ## Blocks -/

/-- A line break as characters. -/
def newline (depth : Nat) : List Char :=
  '\n' :: List.replicate (2 * depth) ' '

/-- The texts of a block after its first one, each after a comma on a line of its own. -/
def following (depth : Nat) (texts : List String) : List Char :=
  texts.flatMap fun text => ',' :: (newline depth ++ text.toList)

theorem skipBlanks_newline (depth : Nat) (cs : List Char) :
    skipBlanks (newline depth ++ cs) = skipBlanks cs := by
  refine List.dropWhile_append_of_pos fun c hc => ?_
  obtain rfl | hc := List.mem_cons.1 hc
  · rfl
  · rw [List.eq_of_mem_replicate hc]
    rfl

theorem skipBlanks_of_not_blank {c : Char} (h : isBlankChar c = false) (cs : List Char) :
    skipBlanks (c :: cs) = c :: cs :=
  List.dropWhile_cons_of_neg (ne_true_of_eq_false h)

theorem following_cons (depth : Nat) (text : String) (texts : List String) :
    following depth (text :: texts) =
      ',' :: (newline depth ++ (text.toList ++ following depth texts)) := by
  simp [following]

/-- The texts of a block, with the first one apart. -/
theorem toList_intercalate_cons (depth : Nat) (text : String) (texts : List String) :
    (("," ++ lineBreak depth).intercalate (text :: texts)).toList =
      text.toList ++ following depth texts := by
  induction texts generalizing text with
  | nil => simp [following]
  | cons next texts ih =>
      rw [String.intercalate_cons_cons, String.toList_append, ih, following_cons]
      simp [lineBreak, newline]

theorem toList_block_nil (opening closing : String) :
    (block depth opening closing []).toList = opening.toList ++ closing.toList :=
  String.toList_append

/-- A block with at least one text. -/
theorem toList_block_cons (opening closing text : String) (texts : List String) :
    (block depth opening closing (text :: texts)).toList =
      opening.toList ++ (newline (depth + 1) ++ (text.toList ++
        (following (depth + 1) texts ++ (newline depth ++ closing.toList)))) := by
  have hbreak (depth : Nat) : (lineBreak depth).toList = newline depth := String.toList_ofList
  rw [block, if_neg (by simp), bracket]
  simp only [String.toList_append, toList_intercalate_cons, hbreak, List.append_assoc]

/-- A block goes on with a comma or a line break, with neither of which a number could go on. -/
theorem numberEnds_following (depth : Nat) (texts : List String) (below : Nat) (rest : List Char) :
    NumberEnds (following depth texts ++ (newline below ++ rest)) := by
  cases texts with
  | nil =>
      rintro c ⟨⟩
      decide
  | cons text texts =>
      rw [following_cons]
      rintro c ⟨⟩
      decide

/-- After the last text of a block its closing bracket comes. -/
theorem skipBlanks_following_nil {closing : Char} (h : isBlankChar closing = false)
    (depth below : Nat) (rest : List Char) :
    skipBlanks (following depth [] ++ (newline below ++ closing :: rest)) = closing :: rest :=
  (skipBlanks_newline below _).trans (skipBlanks_of_not_blank h rest)

/-- After any other text of a block a comma and the next text come. -/
theorem skipBlanks_following_cons (depth : Nat) (text : String) (texts : List String)
    (rest : List Char) :
    skipBlanks (following depth (text :: texts) ++ rest) =
      ',' :: (newline depth ++ (text.toList ++ (following depth texts ++ rest))) := by
  rw [following_cons, List.cons_append, skipBlanks_of_not_blank rfl, List.append_assoc,
    List.append_assoc]

/-! ## Values -/

/-- A value is read back from a text, whatever follows it that is not part of a number. -/
structure ReadsBack (x : Json) (text : List Char) : Prop where
  first : ∃ c cs, text = c :: cs ∧ isBlankChar c = false ∧ c ≠ ']'
  read : ∀ fuel rest, NumberEnds rest → 2 * text.length ≤ fuel →
    readValue fuel (text ++ rest) = .ok (x, rest)

variable {x : Json} {text : List Char}

/-- Blanks before the text of a value are passed over. -/
theorem ReadsBack.skipBlanks (h : ReadsBack x text) (depth : Nat) (rest : List Char) :
    skipBlanks (newline depth ++ (text ++ rest)) = text ++ rest := by
  obtain ⟨c, cs, rfl, hblank, -⟩ := h.first
  rw [skipBlanks_newline]
  exact skipBlanks_of_not_blank hblank _

/-- The text of a value closes no list. -/
theorem ReadsBack.ne_closing (h : ReadsBack x text) (rest after : List Char) :
    text ++ rest ≠ ']' :: after := by
  obtain ⟨c, cs, rfl, -, hclosing⟩ := h.first
  exact fun heq => hclosing (List.cons.inj heq).1

/-- A text that is read as a scalar is read back. -/
theorem ReadsBack.of_readScalar
    (h : ∀ rest, NumberEnds rest → readScalar (text ++ rest) = .ok (x, rest)) :
    ReadsBack x text := by
  have hends : NumberEnds [] := by rintro c ⟨⟩
  have hnil := h [] hends
  rw [List.append_nil] at hnil
  obtain ⟨c, cs, htext, hfirst⟩ := scalarFirst_of_readScalar hnil
  refine ⟨⟨c, cs, htext, hfirst.blank, hfirst.closing⟩, fun fuel rest hrest hfuel => ?_⟩
  rw [htext, List.length_cons] at hfuel
  obtain ⟨fuel, rfl⟩ := Nat.exists_eq_succ_of_ne_zero (Nat.ne_zero_of_lt (by omega : 0 < fuel))
  exact readValue_of_readScalar (h rest hrest)

/-- A character is written with at least one. -/
theorem escapeChar_length_pos (charset : Charset) (c : Char) :
    0 < (escapeChar charset c).length := by
  simp only [escapeChar, codeUnits]
  split_ifs <;> simp [escapeUnit]

theorem length_le_flatMap_escapeChar (charset : Charset) (cs : List Char) :
    cs.length ≤ (cs.flatMap (escapeChar charset)).length := by
  induction cs with
  | nil => exact le_rfl
  | cons c cs ih =>
      have hc := escapeChar_length_pos charset c
      rw [List.flatMap_cons, List.length_append, List.length_cons]
      omega

/-- A written string starts with a quote, after which its text is read. -/
theorem exists_body_of_quote (charset : Charset) (s : String) (rest : List Char) :
    ∃ body, (quote charset s).toList ++ rest = '"' :: body ∧
      ∀ opening fuel, (quote charset s).toList.length ≤ fuel + 1 →
        readString opening fuel [] body = .ok (s, rest) := by
  have hquote : (quote charset s).toList =
      '"' :: (s.toList.flatMap (escapeChar charset) ++ ['"']) := String.toList_ofList
  rw [hquote]
  refine ⟨_, List.cons_append, fun opening fuel hfuel => ?_⟩
  have hlength := length_le_flatMap_escapeChar charset s.toList
  simp only [List.length_cons, List.length_append, List.length_nil] at hfuel
  rw [List.append_assoc]
  exact (readString_quote s.toList (by omega)).trans (by simp)

/-- A written string is read back. -/
theorem ReadsBack.str (charset : Charset) (s : String) :
    ReadsBack (.str s) (quote charset s).toList where
  first := by
    obtain ⟨body, hbody, -⟩ := exists_body_of_quote charset s []
    rw [List.append_nil] at hbody
    exact ⟨'"', body, hbody, by decide, by decide⟩
  read fuel rest hrest hfuel := by
    obtain ⟨body, hbody, hread⟩ := exists_body_of_quote charset s rest
    have hpos : 0 < (quote charset s).toList.length := by simp [quote]
    obtain ⟨fuel, rfl⟩ := Nat.exists_eq_succ_of_ne_zero (Nat.ne_zero_of_lt (by omega : 0 < fuel))
    rw [hbody, readValue, hread _ _ (by omega)]

/-! ## Lists -/

section

variable {read : List Json} {after next : List Char} (hx : ReadsBack x text)
  (hafter : NumberEnds after) (hfuel : 2 * text.length ≤ fuel)

include hx hafter hfuel

/-- The last item of a list is read before the end of the list. -/
theorem readItems_last (hclosing : Json.skipBlanks after = ']' :: rest) :
    readItems (fuel + 1) read (text ++ after) = .ok (.arr (x :: read).reverse, rest) := by
  simp only [readItems, hx.read fuel after hafter hfuel, hclosing]

/-- Any other item is read before those after it. -/
theorem readItems_comma (hcomma : Json.skipBlanks after = ',' :: next) :
    readItems (fuel + 1) read (text ++ after) =
      readItems fuel (x :: read) (Json.skipBlanks next) := by
  simp only [readItems, hx.read fuel after hafter hfuel, hcomma]

end

/-- The items of a list are read back from their texts. -/
theorem readItems_texts {items : List Json} {texts : List String}
    (h : List.Forall₂ (fun x text => ReadsBack x text.toList) items texts) {x : Json}
    (hx : ReadsBack x text) {read : List Json} {below : Nat}
    (hfuel : 2 * (text.length + (following depth texts).length) < fuel) :
    readItems fuel read (text ++ (following depth texts ++ (newline below ++ ']' :: rest))) =
      .ok (.arr (read.reverse ++ x :: items), rest) := by
  -- Each item but the last is followed by a comma, after which the next one is read.
  induction h generalizing x text read fuel with
  | nil =>
      obtain ⟨fuel, rfl⟩ := Nat.exists_eq_succ_of_ne_zero (Nat.ne_zero_of_lt hfuel)
      rw [readItems_last hx (numberEnds_following depth [] below _) (by omega)
        (skipBlanks_following_nil rfl depth below rest), List.reverse_cons]
  | @cons y next items texts hy htexts ih =>
      obtain ⟨fuel, rfl⟩ := Nat.exists_eq_succ_of_ne_zero (Nat.ne_zero_of_lt hfuel)
      rw [readItems_comma hx (numberEnds_following depth (next :: texts) below _) (by omega)
        (skipBlanks_following_cons depth next texts _)]
      rw [following_cons, List.length_cons, List.length_append, List.length_append] at hfuel
      rw [hy.skipBlanks, ih hy (by omega), List.reverse_cons, List.append_assoc,
        List.singleton_append]

/-- A list is read back from a block of its items. -/
theorem ReadsBack.arr {items : List Json} {texts : List String}
    (h : List.Forall₂ (fun x text => ReadsBack x text.toList) items texts) :
    ReadsBack (.arr items) (block depth "[" "]" texts).toList := by
  cases h with
  | nil =>
      rw [toList_block_nil]
      refine ⟨⟨'[', [']'], rfl, rfl, by decide⟩, fun fuel rest _ hfuel => ?_⟩
      obtain ⟨fuel, rfl⟩ := Nat.exists_eq_succ_of_ne_zero
        (Nat.ne_zero_of_lt ((by decide : 0 < 2 * 2).trans_le hfuel))
      rfl
  | @cons x text items texts hx htexts =>
      rw [toList_block_cons]
      refine ⟨⟨'[', _, rfl, rfl, by decide⟩, fun fuel rest _ hfuel => ?_⟩
      simp only [List.length_append] at hfuel
      have hopening : "[".toList.length = 1 := rfl
      obtain ⟨fuel, rfl⟩ := Nat.exists_eq_succ_of_ne_zero (Nat.ne_zero_of_lt (by omega : 0 < fuel))
      simp only [List.append_assoc]
      show readValue (fuel + 1) ('[' :: (newline (depth + 1) ++ (text.toList ++
        (following (depth + 1) texts ++ (newline depth ++ ']' :: rest))))) = _
      rw [readValue, hx.skipBlanks]
      split
      · rename_i after heq
        exact (hx.ne_closing _ _ heq).elim
      · exact readItems_texts htexts hx (by omega)

/-! ## Objects -/

/-- A text holds a field: its name, a colon and its value. -/
def FieldText (charset : Charset) (field : String × Json) (text : String) : Prop :=
  ∃ value, ReadsBack field.2 value ∧
    text.toList = (quote charset field.1).toList ++ (':' :: ' ' :: value)

variable {field : String × Json} {line : String}

/-- A colon is read before the text of a value. -/
theorem ReadsBack.readColon (h : ReadsBack x text) (rest : List Char) :
    readColon (':' :: ' ' :: (text ++ rest)) = .ok (text ++ rest) := by
  obtain ⟨c, cs, rfl, hblank, -⟩ := h.first
  have hspace : Json.skipBlanks (' ' :: (c :: cs ++ rest)) = c :: cs ++ rest :=
    (List.dropWhile_cons_of_pos rfl).trans (skipBlanks_of_not_blank hblank _)
  rw [Json.readColon, skipBlanks_of_not_blank rfl]
  exact congrArg Except.ok hspace

theorem FieldText.first (h : FieldText charset field line) : ∃ cs, line.toList = '"' :: cs := by
  obtain ⟨value, -, hline⟩ := h
  obtain ⟨body, hbody, -⟩ := exists_body_of_quote charset field.1 (':' :: ' ' :: value)
  exact ⟨body, hline.trans hbody⟩

/-- Blanks before the text of a field are passed over. -/
theorem FieldText.skipBlanks (h : FieldText charset field line) (depth : Nat) (rest : List Char) :
    skipBlanks (newline depth ++ (line.toList ++ rest)) = line.toList ++ rest := by
  obtain ⟨cs, hline⟩ := h.first
  rw [skipBlanks_newline, hline]
  exact skipBlanks_of_not_blank rfl _

/-- The text of a field closes no object. -/
theorem FieldText.ne_closing (h : FieldText charset field line) (rest after : List Char) :
    line.toList ++ rest ≠ '\x7d' :: after := by
  obtain ⟨cs, hline⟩ := h.first
  rw [hline]
  rintro ⟨⟩

/-- A name, a colon and a value are read from the text of a field. -/
theorem FieldText.read (h : FieldText charset field line) {after : List Char}
    (hafter : NumberEnds after) (hfuel : 2 * line.toList.length ≤ fuel) :
    ∃ body afterName start, line.toList ++ after = '"' :: body ∧
      readString ('"' :: body) fuel [] body = .ok (field.1, afterName) ∧
      Json.readColon afterName = .ok start ∧ readValue fuel start = .ok (field.2, after) := by
  obtain ⟨value, hvalue, hline⟩ := h
  obtain ⟨body, hbody, hname⟩ :=
    exists_body_of_quote charset field.1 (':' :: ' ' :: (value ++ after))
  rw [hline, List.length_append, List.length_cons, List.length_cons] at hfuel
  refine ⟨body, _, value ++ after, ?_, hname _ _ (by omega), hvalue.readColon after,
    hvalue.read fuel after hafter (by omega)⟩
  rw [hline, List.append_assoc]
  exact hbody

section

variable {read : List (String × Json)} {after next : List Char}
  (hfield : FieldText charset field line) (hafter : NumberEnds after)
  (hfuel : 2 * line.toList.length ≤ fuel)

include hfield hafter hfuel

/-- The last field of an object is read before the end of the object. -/
theorem readFields_last (hclosing : Json.skipBlanks after = '\x7d' :: rest) :
    readFields (fuel + 1) read (line.toList ++ after) =
      .ok (.obj (Fields.ofPairs (field :: read).reverse), rest) := by
  obtain ⟨body, afterName, start, htext, hname, hcolon, hvalue⟩ := hfield.read hafter hfuel
  simp only [htext, readFields, hname, hcolon, hvalue, hclosing]

/-- Any other field is read before those after it. -/
theorem readFields_comma (hcomma : Json.skipBlanks after = ',' :: next) :
    readFields (fuel + 1) read (line.toList ++ after) =
      readFields fuel (field :: read) (Json.skipBlanks next) := by
  obtain ⟨body, afterName, start, htext, hname, hcolon, hvalue⟩ := hfield.read hafter hfuel
  simp only [htext, readFields, hname, hcolon, hvalue, hcomma]

end

/-- The fields of an object are read back from their texts. -/
theorem readFields_texts {fields : List (String × Json)} {texts : List String}
    (h : List.Forall₂ (FieldText charset) fields texts) (hfield : FieldText charset field line)
    {read : List (String × Json)} {below : Nat}
    (hfuel : 2 * (line.toList.length + (following depth texts).length) < fuel) :
    readFields fuel read
        (line.toList ++ (following depth texts ++ (newline below ++ '\x7d' :: rest))) =
      .ok (.obj (Fields.ofPairs (read.reverse ++ field :: fields)), rest) := by
  induction h generalizing field line read fuel with
  | nil =>
      obtain ⟨fuel, rfl⟩ := Nat.exists_eq_succ_of_ne_zero (Nat.ne_zero_of_lt hfuel)
      rw [readFields_last hfield (numberEnds_following depth [] below _) (by omega)
        (skipBlanks_following_nil rfl depth below rest), List.reverse_cons]
  | @cons next line' fields texts hnext htexts ih =>
      obtain ⟨fuel, rfl⟩ := Nat.exists_eq_succ_of_ne_zero (Nat.ne_zero_of_lt hfuel)
      rw [readFields_comma hfield (numberEnds_following depth (line' :: texts) below _) (by omega)
        (skipBlanks_following_cons depth line' texts _)]
      rw [following_cons, List.length_cons, List.length_append, List.length_append] at hfuel
      rw [hnext.skipBlanks, ih hnext (by omega), List.reverse_cons, List.append_assoc,
        List.singleton_append]

/-- An object is read back from a block of its fields. -/
theorem ReadsBack.obj {fields : List (String × Json)} (hfields : Fields.WellFormed fields)
    {texts : List String} (h : List.Forall₂ (FieldText charset) fields texts) :
    ReadsBack (.obj fields) (block depth "\x7b" "\x7d" texts).toList := by
  cases h with
  | nil =>
      rw [toList_block_nil]
      refine ⟨⟨'\x7b', ['\x7d'], rfl, rfl, by decide⟩, fun fuel rest _ hfuel => ?_⟩
      obtain ⟨fuel, rfl⟩ := Nat.exists_eq_succ_of_ne_zero
        (Nat.ne_zero_of_lt ((by decide : 0 < 2 * 2).trans_le hfuel))
      rfl
  | @cons field line fields texts hfield htexts =>
      rw [toList_block_cons]
      refine ⟨⟨'\x7b', _, rfl, rfl, by decide⟩, fun fuel rest _ hfuel => ?_⟩
      simp only [List.length_append] at hfuel
      have hopening : "\x7b".toList.length = 1 := rfl
      obtain ⟨fuel, rfl⟩ := Nat.exists_eq_succ_of_ne_zero (Nat.ne_zero_of_lt (by omega : 0 < fuel))
      simp only [List.append_assoc]
      show readValue (fuel + 1) ('\x7b' :: (newline (depth + 1) ++ (line.toList ++
        (following (depth + 1) texts ++ (newline depth ++ '\x7d' :: rest))))) = _
      rw [readValue, hfield.skipBlanks]
      split
      · rename_i after heq
        exact (hfield.ne_closing _ _ heq).elim
      · -- The names repeat none, so the fields stand as they were read.
        rw [readFields_texts htexts hfield (by omega)]
        exact congrArg (fun fields => Except.ok (Json.obj fields, rest))
          (Fields.ofPairs_eq_self hfields)

/-! ## Documents -/

mutual

/-- A value that a text can denote is read back from its own. -/
theorem readsBack_prettyAt (charset : Charset) (depth : Nat) :
    ∀ x : Json, x.Readable → ReadsBack x (x.prettyAt charset depth).toList
  | .null, _ => by
    rw [prettyAt]
    exact .of_readScalar fun _ _ => rfl
  | .bool b, _ => by
    rw [prettyAt]
    cases b <;> exact .of_readScalar fun _ _ => rfl
  | .int n, _ => by
    rw [prettyAt]
    exact .of_readScalar fun _ hrest => readScalar_int n hrest
  | .real _, hx => by
    rw [prettyAt]
    exact .of_readScalar fun _ hrest => readScalar_real hx hrest
  | .str s, _ => by
    rw [prettyAt]
    exact .str charset s
  | .arr items, hx => by
    rw [prettyAt]
    exact .arr (forall₂_prettyItems charset (depth + 1) items hx)
  | .obj fields, hx => by
    rw [prettyAt]
    exact .obj hx.1 (forall₂_prettyFields charset (depth + 1) fields hx.2)

/-- The items of a list are read back from their texts. -/
theorem forall₂_prettyItems (charset : Charset) (depth : Nat) :
    ∀ items : List Json, AllReadable items →
      List.Forall₂ (fun x text => ReadsBack x text.toList) items (prettyItems charset depth items)
  | [], _ => by
    rw [prettyItems]
    exact .nil
  | x :: rest, hx => by
    rw [prettyItems]
    exact .cons (readsBack_prettyAt charset depth x hx.1)
      (forall₂_prettyItems charset depth rest hx.2)

/-- The fields of an object are read back from their texts. -/
theorem forall₂_prettyFields (charset : Charset) (depth : Nat) :
    ∀ fields : List (String × Json), FieldsReadable fields →
      List.Forall₂ (FieldText charset) fields (prettyFields charset depth fields)
  | [], _ => by
    rw [prettyFields]
    exact .nil
  | (_, x) :: rest, hx => by
    rw [prettyFields]
    exact .cons ⟨_, readsBack_prettyAt charset depth x hx.1, by simp⟩
      (forall₂_prettyFields charset depth rest hx.2)

end

/-- Blanks at the end of a text are skipped to the end. -/
theorem skipBlanks_eq_nil {blanks : List Char} (h : ∀ c ∈ blanks, isBlankChar c = true) :
    skipBlanks blanks = [] :=
  List.dropWhile_eq_nil_iff.2 h

/-- A document is read back from its text with blanks after it. -/
theorem readAll_pretty (charset : Charset) {x : Json} (hx : x.Readable) {blanks : List Char}
    (hblanks : ∀ c ∈ blanks, isBlankChar c = true) :
    readAll ((x.pretty charset).toList ++ blanks) = .ok x := by
  have hback := readsBack_prettyAt charset 0 x hx
  have hends : NumberEnds blanks := by
    intro c hc
    have hblank := hblanks c (List.mem_of_mem_head? hc)
    simp only [isBlankChar, Bool.or_eq_true, beq_iff_eq, or_assoc] at hblank
    rcases hblank with rfl | rfl | rfl | rfl <;> decide
  rw [pretty]
  generalize (x.prettyAt charset 0).toList = text at hback
  have hread := hback.read (2 * (text ++ blanks).length + 2) blanks hends (by simp; omega)
  obtain ⟨c, cs, rfl, hblank, -⟩ := hback.first
  rw [readAll]
  · rw [List.cons_append, skipBlanks_of_not_blank hblank, ← List.cons_append, hread]
    dsimp only
    rw [skipBlanks_eq_nil hblanks]
  · -- A text that starts with a byte order mark would not be read.
    rintro rest ⟨⟩
    cases hread

/-- A document that a text can denote is read back from its text, with blanks after it. -/
theorem read_pretty (charset : Charset) {x : Json} (hx : x.Readable) {blanks : String}
    (hblanks : ∀ c ∈ blanks.toList, isBlankChar c = true) :
    read (x.pretty charset ++ blanks) = .ok x := by
  rw [read, String.toList_append, readAll_pretty charset hx hblanks]

end Json

end DesignTokens
