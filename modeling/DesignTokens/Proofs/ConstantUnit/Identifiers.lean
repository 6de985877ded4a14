import DesignTokens.Proofs.KebabCase
import DesignTokens.Target.ConstantUnit

/-!
# Identifiers

Cleaning leaves only letters, digits and underscores in an identifier. The upper case of a character
has no small ASCII letters (`Text.isLower_of_mem_upperChar`), so whatever the name is, its
identifier starts with a capital or an underscore and is no keyword: `identifier_never_keyword`. A
name in kebab case needs no cleaning, so its identifier tells it: `KebabName.identifier_injective`.
-/

namespace DesignTokens

/-- The characters of an identifier may occur in one. -/
theorem isIdentifierChar_of_mem_identifier {name : String} {c : Char}
    (h : c ∈ (identifier name).toList) : Identifier.isIdentifierChar c := by
  have hunderscore : Identifier.isIdentifierChar '_' := by decide
  have hcleaned : ∀ cs : List Char, c ∈ cs.map Identifier.replaceInvalid →
      Identifier.isIdentifierChar c := by
    intro cs hc
    obtain ⟨d, -, rfl⟩ := List.mem_map.1 hc
    unfold Identifier.replaceInvalid
    split
    · assumption
    · exact hunderscore
  have hguarded : ∀ cs : List Char, c ∈ Identifier.guardStart cs → c = '_' ∨ c ∈ cs := by
    intro cs hc
    cases cs with
    | nil => exact Or.inl (List.mem_singleton.1 hc)
    | cons d rest =>
        rw [Identifier.guardStart] at hc
        split at hc
        · exact List.mem_cons.1 hc
        · exact Or.inr hc
  rw [identifier, String.toList_ofList] at h
  rcases hguarded _ h with rfl | hmem
  · exact hunderscore
  · exact hcleaned _ hmem

/-! ## Legal identifiers -/

namespace Identifier

/-- The words that the language of units keeps for itself, those that it keeps in some places only
included. -/
def keywords : List String :=
  ["abstract", "as", "base", "bool", "break", "byte", "case", "catch", "char", "checked", "class",
   "const", "continue", "decimal", "default", "delegate", "do", "double", "else", "enum", "event",
   "explicit", "extern", "false", "finally", "fixed", "float", "for", "foreach", "goto", "if",
   "implicit", "in", "int", "interface", "internal", "is", "lock", "long", "namespace", "new",
   "null", "object", "operator", "out", "override", "params", "private", "protected", "public",
   "readonly", "ref", "return", "sbyte", "sealed", "short", "sizeof", "stackalloc", "static",
   "string", "struct", "switch", "this", "throw", "true", "try", "typeof", "uint", "ulong",
   "unchecked", "unsafe", "ushort", "using", "virtual", "void", "volatile", "while",
   "add", "alias", "allows", "and", "ascending", "args", "async", "await", "by", "descending",
   "dynamic", "equals", "extension", "field", "file", "from", "get", "global", "group", "init",
   "into", "join", "let", "managed", "nameof", "nint", "not", "notnull", "nuint", "on", "or",
   "orderby", "partial", "record", "remove", "required", "scoped", "select", "set", "unmanaged",
   "value", "var", "when", "where", "with", "yield"]

/-- The text is an identifier in the language of units: ASCII letters, digits and underscores, of
which the first is a capital or an underscore. -/
structure Legal (text : String) : Prop where
  start : ∃ first rest, text.toList = first :: rest ∧ (first.isUpper ∨ first = '_')
  chars : ∀ c ∈ text.toList, c.isAlphanum ∨ c = '_'

/-- Every keyword starts with a small letter, so a legal identifier is none. -/
theorem Legal.not_mem_keywords {text : String} (h : Legal text) : text ∉ keywords := by
  have hsmall : ∀ word ∈ keywords, word.toList.head?.any Char.isLower := by
    decide +kernel
  obtain ⟨first, rest, htext, hfirst⟩ := h.start
  intro hkeyword
  have hlower : first.isLower := by
    have hstart := hsmall text hkeyword
    rwa [htext, List.head?_cons, Option.any_some] at hstart
  have hinner : Kebab.isInner first := by
    rw [Kebab.isInner, hlower]
    rfl
  rcases hfirst with hcapital | rfl
  · exact Bool.eq_false_iff.1 (Kebab.toLower_of_isInner hinner).1 hcapital
  · cases hlower

/-- The characters do not start with a small ASCII letter. -/
def NoSmallStart (cs : List Char) : Prop :=
  ∀ c ∈ cs.head?, c.isLower = false

end Identifier

/-- The upper case of a character has no small ASCII letters. -/
theorem Text.isLower_of_mem_upperChar {c d : Char} (h : d ∈ upperChar c) : d.isLower = false := by
  rcases upperChar_cases c with ⟨hascii, hupper⟩ | ⟨entry, hentry, hupper⟩ |
    ⟨r, hr, happlies, hupper⟩ | ⟨hbeyond, hupper⟩ <;> rw [hupper] at h
  · obtain rfl := List.mem_singleton.1 h
    exact forall_ascii (p := fun c => c.toUpper.isLower = false) (by decide +kernel) hascii
  · have hexpansions : ∀ entry ∈ upperExpansions,
        (entry.2.map Char.ofNat).all fun d => !d.isLower := by
      decide +kernel
    have hsmall := List.all_eq_true.1 (hexpansions entry hentry) d h
    rwa [Bool.not_eq_true'] at hsmall
  · -- The images of a run are all before the small letters or all behind them.
    have hruns : ∀ r ∈ upperRuns, r.last + r.shift < 97 ∨ 122 < r.first + r.shift := by
      decide +kernel
    obtain ⟨hfirst, hlast, himage⟩ := CaseRun.image_of_applies happlies
    refine Bool.eq_false_iff.2 fun hlower => ?_
    obtain ⟨hsmall, hgreat⟩ := Kebab.toNat_bounds_of_isLower hlower
    have hpoint : d.toNat = r.image c.toNat := by
      refine toNat_of_ofNat_eq ?_ (List.mem_singleton.1 h).symm
      rintro rfl
      cases hlower
    rw [himage] at hpoint
    rcases hruns r hr with hbefore | hbehind <;> omega
  · obtain rfl := List.mem_singleton.1 h
    refine Bool.eq_false_iff.2 fun hlower => ?_
    exact Nat.not_lt.2 hbeyond (Kebab.toNat_of_isLower hlower)

/-- The upper case of a character is not empty. -/
theorem Text.upperChar_ne_nil (c : Char) : upperChar c ≠ [] := by
  have hexpansions : ∀ entry ∈ upperExpansions, entry.2.map Char.ofNat ≠ [] := by
    decide +kernel
  rcases upperChar_cases c with ⟨-, hupper⟩ | ⟨entry, hentry, hupper⟩ | ⟨r, -, -, hupper⟩ |
    ⟨-, hupper⟩ <;> rw [hupper]
  · exact List.cons_ne_nil _ _
  · exact hexpansions entry hentry
  · exact List.cons_ne_nil _ _
  · exact List.cons_ne_nil _ _

namespace Identifier

/-- Words with their first characters in upper case do not start with a small letter when they are
joined, also when leading words are empty. -/
theorem noSmallStart_flatMap (words : List (List Char)) :
    NoSmallStart (words.flatMap Text.capitalize) := by
  induction words with
  | nil => exact nofun
  | cons word rest ih =>
      rw [List.flatMap_cons]
      cases word with
      | nil => exact ih
      | cons c below =>
          obtain ⟨first, more, hupper⟩ := List.exists_cons_of_ne_nil (Text.upperChar_ne_nil c)
          intro d hd
          rw [Text.capitalize, hupper] at hd
          obtain rfl : first = d := Option.some.inj hd
          refine Text.isLower_of_mem_upperChar (c := c) ?_
          rw [hupper]
          exact List.mem_cons_self

/-- Cleaning makes a capital, a digit or an underscore of a character that is no small letter. -/
theorem replaceInvalid_cases {c : Char} (h : c.isLower = false) :
    (replaceInvalid c).isUpper ∨ (replaceInvalid c).isDigit ∨ replaceInvalid c = '_' := by
  unfold replaceInvalid
  split
  · rename_i hvalid
    have hkind : (c.isUpper || c.isLower || c.isDigit || c == '_') = true := hvalid
    simpa [h, or_assoc] using hkind
  · exact Or.inr (Or.inr rfl)

/-- Characters that do not start with a small letter start with a capital or an underscore once they
are cleaned and guarded. -/
theorem exists_guardStart {cs : List Char} (h : NoSmallStart cs) :
    ∃ first rest, guardStart (cs.map replaceInvalid) = first :: rest ∧
      (first.isUpper ∨ first = '_') := by
  cases cs with
  | nil => exact ⟨'_', [], rfl, Or.inr rfl⟩
  | cons c rest =>
      rw [List.map_cons, guardStart]
      split
      · exact ⟨'_', _, rfl, Or.inr rfl⟩
      · rename_i hdigit
        exact ⟨replaceInvalid c, _, rfl,
          (replaceInvalid_cases (h c rfl)).imp_right fun hrest => hrest.resolve_left hdigit⟩

end Identifier

/-- The identifier of any name is legal. -/
theorem legal_identifier (name : String) : Identifier.Legal (identifier name) := by
  refine ⟨?_, fun c hc => ?_⟩
  · rw [identifier, String.toList_ofList, pascalCase, String.toList_ofList]
    exact Identifier.exists_guardStart (Identifier.noSmallStart_flatMap _)
  · have hkind := isIdentifierChar_of_mem_identifier hc
    rw [Identifier.isIdentifierChar, Bool.or_eq_true, beq_iff_eq] at hkind
    exact hkind

/-- Whatever the name is, its identifier is not empty, consists of ASCII letters, digits and
underscores, starts with a capital or an underscore, and is no keyword. -/
theorem identifier_never_keyword (name : String) :
    identifier name ≠ "" ∧ Identifier.Legal (identifier name) ∧
      identifier name ∉ Identifier.keywords := by
  have hlegal := legal_identifier name
  refine ⟨fun hempty => ?_, hlegal, hlegal.not_mem_keywords⟩
  obtain ⟨first, rest, htext, -⟩ := hlegal.start
  rw [hempty] at htext
  cases htext

/-- Names without words, with a digit in front, and with characters whose upper case is several
characters or that no identifier may have. -/
example :
    ["", "--", "-2-xl", "ßa", "-ŉ", "éé"].map identifier =
      ["_", "_", "_2Xl", "SSa", "_N", "__"] := by
  decide +kernel

namespace KebabName

variable {name other : String}

/-- The identifier of a name in kebab case joins its capitalized words. -/
theorem identifier_eq (h : KebabName name) : identifier name = pascalCase name := by
  have hclean : (pascalCase name).toList.map Identifier.replaceInvalid =
      (pascalCase name).toList := by
    refine (List.map_congr_left fun c hc => ?_).trans (List.map_id _)
    have hletter : c.isAlphanum := by
      have hkind := (mem_pascalCase h hc).1
      rw [Kebab.isInner, Bool.or_eq_true, ← or_assoc, ← Bool.or_eq_true, ← Bool.or_eq_true] at hkind
      exact hkind
    rw [Identifier.replaceInvalid, Identifier.isIdentifierChar, hletter]
    rfl
  have hguard : Identifier.guardStart (pascalCase name).toList = (pascalCase name).toList := by
    obtain ⟨c, below, hc, hidentifier⟩ := exists_capital h
    rw [hidentifier, Identifier.guardStart, (Kebab.toUpper_of_isLower hc).2.1]
    rfl
  rw [identifier, hclean, hguard, String.ofList_toList]

/-- Names in kebab case that have the same identifier are the same. -/
theorem identifier_injective (h : KebabName name) (hother : KebabName other)
    (heq : identifier name = identifier other) : name = other := by
  rw [h.identifier_eq, hother.identifier_eq] at heq
  rw [← kebabCase_pascalCase h, heq, kebabCase_pascalCase hother]

end KebabName

end DesignTokens
