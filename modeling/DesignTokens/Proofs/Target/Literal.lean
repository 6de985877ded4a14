import DesignTokens.Target.ConstantUnit
import DesignTokens.Target.NameModule
import Mathlib.Data.List.Basic

/-!
# Reading literals back

A text between quotes is escaped by a backslash before every backslash and every quote. `scan` reads
such a literal up to its first quote without a backslash before it, and gives back the text that was
escaped (`scan_escape`). So different texts have different literals: `quoteLiteral_injective`.
`literals_denote_texts` says so of both kinds of quotes, and that escaping is two replacements in
whole texts, of which that of backslashes comes first.
-/

namespace DesignTokens

namespace Literal

/-- A character as it stands between quotes of a kind. -/
def escape (quote c : Char) : List Char :=
  if c = '\\' ∨ c = quote then ['\\', c] else [c]

theorem escapeLiteralChar_eq : escapeLiteralChar = escape '"' := rfl

/-- The characters with others in the place of one, wherever it stands. -/
def replaceAll (old : Char) (new cs : List Char) : List Char :=
  cs.flatMap fun c => if c = old then new else [c]

/-- Escaping doubles all backslashes, and then puts one before every quote. -/
theorem flatMap_escape {quote : Char} (hquote : quote ≠ '\\') (cs : List Char) :
    cs.flatMap (escape quote) =
      replaceAll quote ['\\', quote] (replaceAll '\\' ['\\', '\\'] cs) := by
  rw [replaceAll, replaceAll, List.flatMap_assoc]
  refine List.flatMap_congr fun c _ => ?_
  by_cases hslash : c = '\\'
  · -- The new backslashes are no quotes, so the second replacement leaves them.
    subst hslash
    simp [escape, hquote.symm]
  · by_cases hother : c = quote <;> simp [escape, hslash, hother, hquote]

/-- The characters up to the first quote of a kind, and what follows that quote. After a backslash,
when `escaped` holds, the next character stands for itself. -/
def scan (quote : Char) (escaped : Bool) : List Char → Option (List Char × List Char)
  | [] => none
  | c :: rest =>
    if escaped then (scan quote false rest).map fun read => (c :: read.1, read.2)
    else if c = quote then some ([], rest)
    else if c = '\\' then scan quote true rest
    else (scan quote false rest).map fun read => (c :: read.1, read.2)

/-- Scanning escaped characters gives them back, and ends at the quote after them. -/
theorem scan_escape {quote : Char} (hquote : quote ≠ '\\') (cs rest : List Char) :
    scan quote false (cs.flatMap (escape quote) ++ quote :: rest) = some (cs, rest) := by
  induction cs with
  | nil => simp [scan]
  | cons c cs ih =>
      rw [List.flatMap_cons, List.append_assoc]
      by_cases hspecial : c = '\\' ∨ c = quote
      · rw [escape, if_pos hspecial]
        simp [scan, hquote.symm, ih]
      · obtain ⟨hslash, hother⟩ := not_or.1 hspecial
        rw [escape, if_neg hspecial]
        simp [scan, hslash, hother, ih]

/-- Different characters are escaped differently. -/
theorem escape_injective {quote : Char} (hquote : quote ≠ '\\') {cs ds : List Char}
    (h : cs.flatMap (escape quote) = ds.flatMap (escape quote)) : cs = ds := by
  have hcs := scan_escape hquote cs []
  rw [h, scan_escape hquote ds []] at hcs
  cases hcs
  rfl

/-- A literal in quotes of a kind denotes a text: read from just behind its opening quote, it ends
with the first quote that no backslash makes a character, and the characters up to there are the
text. -/
def Denotes (quote : Char) (literal text : String) : Prop :=
  ∃ inside, literal.toList = quote :: inside ∧ scan quote false inside = some (text.toList, [])

end Literal

theorem toList_escapeLiteral (text : String) :
    (escapeLiteral text).toList = text.toList.flatMap (Literal.escape '"') :=
  String.toList_ofList

theorem toList_quoteLiteral (text : String) :
    (quoteLiteral text).toList = '"' :: ((escapeLiteral text).toList ++ ['"']) := by
  simp [quoteLiteral]

theorem NameModule.toList_quote (name : String) :
    (NameModule.quote name).toList =
      '\'' :: (name.toList.flatMap (Literal.escape '\'') ++ ['\'']) :=
  String.toList_ofList

/-- Different texts are escaped differently. -/
theorem escapeLiteral_injective : Function.Injective escapeLiteral := by
  intro text other h
  have hcharacters := congrArg String.toList h
  rw [toList_escapeLiteral, toList_escapeLiteral] at hcharacters
  exact String.toList_inj.1 (Literal.escape_injective (by decide) hcharacters)

/-- Different texts have different literals. -/
theorem quoteLiteral_injective {text other : String} (h : quoteLiteral text = quoteLiteral other) :
    text = other := by
  have hcharacters := congrArg String.toList h
  rw [toList_quoteLiteral, toList_quoteLiteral, List.cons.injEq] at hcharacters
  exact escapeLiteral_injective (String.toList_inj.1 (List.append_cancel_right hcharacters.2))

/-- Different names are quoted differently. -/
theorem NameModule.quote_injective : Function.Injective NameModule.quote := by
  intro name other h
  have hcharacters := congrArg String.toList h
  rw [NameModule.toList_quote, NameModule.toList_quote, List.cons.injEq] at hcharacters
  have hinside := List.append_cancel_right hcharacters.2
  exact String.toList_inj.1 (Literal.escape_injective (by decide) hinside)

/-- Escaping a text replaces its backslashes and then its quotes by what has a backslash before
them. A literal in double quotes denotes its text, and one in single quotes its name. So different
texts are escaped differently, and different names are quoted differently. -/
theorem literals_denote_texts :
    (∀ text, (escapeLiteral text).toList =
        Literal.replaceAll '"' ['\\', '"']
          (Literal.replaceAll '\\' ['\\', '\\'] text.toList) ∧
      Literal.Denotes '"' (quoteLiteral text) text) ∧
    (∀ name, (NameModule.quote name).toList =
        '\'' :: (Literal.replaceAll '\'' ['\\', '\'']
          (Literal.replaceAll '\\' ['\\', '\\'] name.toList) ++ ['\'']) ∧
      Literal.Denotes '\'' (NameModule.quote name) name) ∧
    Function.Injective escapeLiteral ∧ Function.Injective NameModule.quote := by
  have hdouble : '"' ≠ '\\' := by decide
  have hsingle : '\'' ≠ '\\' := by decide
  refine ⟨fun text => ⟨?_, ?_⟩, fun name => ⟨?_, ?_⟩, escapeLiteral_injective,
    NameModule.quote_injective⟩
  · rw [toList_escapeLiteral, Literal.flatMap_escape hdouble]
  · refine ⟨_, toList_quoteLiteral text, ?_⟩
    rw [toList_escapeLiteral]
    exact Literal.scan_escape hdouble text.toList []
  · rw [NameModule.toList_quote, Literal.flatMap_escape hsingle]
  · exact ⟨_, NameModule.toList_quote name, Literal.scan_escape hsingle name.toList []⟩

end DesignTokens
