import DesignTokens.Proofs.Naming

/-!
# Names in kebab case

A name in kebab case is a list of words with hyphens between them. A word is a small ASCII letter
that small ASCII letters and digits may follow. Such keys make such paths (`KebabName.joinPath`). In
the identifier of a name every word begins with a capital, and no other character is one, so the
hyphenated name of the identifier is the name itself: `kebabCase_pascalCase`.
-/

namespace DesignTokens

namespace Kebab

/-- The character may follow the first one of a word. -/
def isInner (c : Char) : Bool :=
  c.isLower || c.isDigit

/-- The characters are a word: a small ASCII letter, then small ASCII letters and digits. -/
def isWord : List Char → Bool
  | [] => false
  | c :: rest => c.isLower && rest.all isInner

end Kebab

/-- The name is in kebab case: it has only words between its hyphens. -/
def KebabName (name : String) : Prop :=
  ∀ word ∈ name.toList.splitOn '-', Kebab.isWord word = true

instance (name : String) : Decidable (KebabName name) :=
  List.decidableBAll (fun word => Kebab.isWord word = true) (name.toList.splitOn '-')

/-! ## Characters of words -/

/-- The lower case of an ASCII text is that of its characters. -/
theorem Text.lowerAfter_of_ascii {cs : List Char} (h : ∀ c ∈ cs, c.toNat < 128)
    (before : List Char) : lowerAfter before cs = cs.map Char.toLower := by
  induction cs generalizing before with
  | nil => rfl
  | cons c rest ih =>
      obtain ⟨hc, hrest⟩ := List.forall_mem_cons.1 h
      have hsigma : c ≠ 'Σ' := by
        rintro rfl
        exact absurd hc (by decide)
      rw [lowerAfter, if_neg hsigma, lowerChar, if_pos hc, ih hrest]
      rfl

namespace Kebab

variable {c : Char} {word : List Char} {words : List (List Char)}

/-- The small ASCII letters stand in one row. -/
theorem toNat_bounds_of_isLower (h : c.isLower) : 97 ≤ c.toNat ∧ c.toNat ≤ 122 := by
  have hrange : (decide (97 ≤ c.val) && decide (c.val ≤ 122)) = true := h
  simp only [Bool.and_eq_true, decide_eq_true_eq, UInt32.le_iff_toNat_le] at hrange
  exact hrange

theorem toNat_of_isLower (h : c.isLower) : c.toNat < 128 :=
  Nat.lt_of_le_of_lt (toNat_bounds_of_isLower h).2 (by decide)

theorem toNat_of_isInner (h : isInner c) : c.toNat < 128 := by
  rw [isInner, Bool.or_eq_true] at h
  rcases h with hlower | hdigit
  · exact toNat_of_isLower hlower
  · exact Nat.lt_of_le_of_lt (Char.isDigit_iff_toNat.1 hdigit).2 (by decide)

/-- The capital of a small letter is an ASCII letter whose lower case is the small one. -/
theorem toUpper_of_isLower (h : c.isLower) :
    c.toUpper.isUpper ∧ c.toUpper.isDigit = false ∧ c.toUpper.toLower = c ∧
      c.toUpper.toNat < 128 := by
  refine Text.forall_ascii (p := fun c => c.isLower → c.toUpper.isUpper ∧
    c.toUpper.isDigit = false ∧ c.toUpper.toLower = c ∧ c.toUpper.toNat < 128) ?_
    (toNat_of_isLower h) h
  decide +kernel

/-- The other characters of a word are no capitals and no hyphens. -/
theorem toLower_of_isInner (h : isInner c) : c.isUpper = false ∧ c.toLower = c ∧ c ≠ '-' := by
  refine Text.forall_ascii (p := fun c => isInner c → c.isUpper = false ∧ c.toLower = c ∧ c ≠ '-')
    ?_ (toNat_of_isInner h) h
  decide +kernel

/-- A word is a small letter and what follows it. -/
theorem isWord_iff :
    isWord word ↔ ∃ c rest, word = c :: rest ∧ c.isLower ∧ ∀ d ∈ rest, isInner d := by
  cases word with
  | nil => simp [isWord]
  | cons c rest =>
      rw [isWord, Bool.and_eq_true, List.all_eq_true]
      constructor
      · intro h
        exact ⟨c, rest, rfl, h⟩
      · rintro ⟨_, _, heq, h⟩
        cases heq
        exact h

/-- A word in an identifier begins with a capital and goes on as it is. -/
theorem capitalize_cons (h : c.isLower) (rest : List Char) :
    Text.capitalize (c :: rest) = c.toUpper :: rest := by
  rw [Text.capitalize, Text.upperChar, if_pos (toNat_of_isLower h)]
  rfl

/-- The characters of a capitalized word are ASCII capitals and those that words may have. -/
theorem mem_capitalize (hword : isWord word) (hc : c ∈ Text.capitalize word) :
    (c.isUpper ∨ isInner c) ∧ c.toNat < 128 := by
  obtain ⟨first, rest, rfl, hfirst, hrest⟩ := isWord_iff.1 hword
  obtain ⟨hupper, -, -, hascii⟩ := toUpper_of_isLower hfirst
  rw [capitalize_cons hfirst] at hc
  rcases List.mem_cons.1 hc with rfl | hmem
  · exact ⟨Or.inl hupper, hascii⟩
  · exact ⟨Or.inr (hrest c hmem), toNat_of_isInner (hrest c hmem)⟩

/-! ## Capitals and hyphens -/

theorem hyphenate_append (cs ds : List Char) :
    hyphenate (cs ++ ds) = hyphenate cs ++ hyphenate ds :=
  List.flatMap_append

/-- Characters that are no capitals get no hyphens. -/
theorem hyphenate_of_inner {cs : List Char} (h : ∀ c ∈ cs, isInner c) : hyphenate cs = cs := by
  induction cs with
  | nil => rfl
  | cons c rest ih =>
      obtain ⟨hc, hrest⟩ := List.forall_mem_cons.1 h
      have hstep : hyphenate (c :: rest) =
          (if c.isUpper then ['-', c] else [c]) ++ hyphenate rest := rfl
      rw [hstep, (toLower_of_isInner hc).1, ih hrest]
      rfl

theorem mem_hyphenate {cs : List Char} (h : c ∈ hyphenate cs) : c = '-' ∨ c ∈ cs := by
  obtain ⟨d, hd, hc⟩ := List.mem_flatMap.1 h
  split at hc
  · rcases List.mem_cons.1 hc with rfl | hmem
    · exact Or.inl rfl
    · exact Or.inr (List.mem_singleton.1 hmem ▸ hd)
  · exact Or.inr (List.mem_singleton.1 hc ▸ hd)

/-- A capitalized word gets one hyphen in front, and its lower case is the word. -/
theorem map_toLower_hyphenate_capitalize (hword : isWord word) :
    (hyphenate (Text.capitalize word)).map Char.toLower = '-' :: word := by
  obtain ⟨c, rest, rfl, hc, hrest⟩ := isWord_iff.1 hword
  obtain ⟨hupper, -, hlower, -⟩ := toUpper_of_isLower hc
  have hfirst : hyphenate [c.toUpper] = ['-', c.toUpper] := by
    simp [hyphenate, hupper]
  have hkept : rest.map Char.toLower = rest :=
    (List.map_congr_left fun d hd => (toLower_of_isInner (hrest d hd)).2.1).trans (List.map_id rest)
  rw [capitalize_cons hc, ← List.singleton_append, hyphenate_append, hfirst,
    hyphenate_of_inner hrest, List.map_append, hkept]
  simp [hlower]

/-- Capitalized words get one hyphen in front of each. -/
theorem map_toLower_hyphenate_flatMap (hwords : ∀ word ∈ words, isWord word) :
    (hyphenate (words.flatMap Text.capitalize)).map Char.toLower = words.flatMap ('-' :: ·) := by
  induction words with
  | nil => rfl
  | cons word rest ih =>
      obtain ⟨hword, hrest⟩ := List.forall_mem_cons.1 hwords
      rw [List.flatMap_cons, hyphenate_append, List.map_append, ih hrest,
        map_toLower_hyphenate_capitalize hword, List.flatMap_cons]

/-- Words with a hyphen in front of each are a hyphen and the words with hyphens between them. -/
theorem flatMap_hyphen (word : List Char) (words : List (List Char)) :
    (word :: words).flatMap ('-' :: ·) = '-' :: ['-'].intercalate (word :: words) := by
  induction words generalizing word with
  | nil => simp
  | cons next rest ih =>
      rw [List.flatMap_cons, ih, List.intercalate_cons_cons]
      simp

end Kebab

/-! ## Names and their identifiers -/

/-- The characters of an identifier are the capitalized words of the name. -/
theorem toList_pascalCase (name : String) :
    (pascalCase name).toList = (name.toList.splitOn '-').flatMap Text.capitalize :=
  String.toList_ofList

/-- A character of the identifier of a name in kebab case is one of a capitalized word. -/
theorem mem_pascalCase {name : String} (h : KebabName name) {c : Char}
    (hc : c ∈ (pascalCase name).toList) : (c.isUpper ∨ Kebab.isInner c) ∧ c.toNat < 128 := by
  rw [toList_pascalCase] at hc
  obtain ⟨word, hword, hmem⟩ := List.mem_flatMap.1 hc
  exact Kebab.mem_capitalize (h word hword) hmem

/-- The identifier of a name in kebab case begins with the capital of a small letter. -/
theorem exists_capital {name : String} (h : KebabName name) :
    ∃ (c : Char) (below : List Char),
      c.isLower ∧ (pascalCase name).toList = c.toUpper :: below := by
  obtain ⟨word, words, hwords⟩ := List.exists_cons_of_ne_nil (List.splitOn_ne_nil '-' name.toList)
  obtain ⟨c, rest, rfl, hc, -⟩ := Kebab.isWord_iff.1 (h word (hwords ▸ List.mem_cons_self))
  refine ⟨c, rest ++ words.flatMap Text.capitalize, hc, ?_⟩
  rw [toList_pascalCase, hwords, List.flatMap_cons, Kebab.capitalize_cons hc]
  rfl

/-- With hyphens before its capitals and in lower case, the identifier of a name in kebab case is
the name behind a hyphen. -/
theorem map_toLower_hyphenate_pascalCase {name : String} (h : KebabName name) :
    (hyphenate (pascalCase name).toList).map Char.toLower = '-' :: name.toList := by
  obtain ⟨word, words, hwords⟩ := List.exists_cons_of_ne_nil (List.splitOn_ne_nil '-' name.toList)
  rw [toList_pascalCase, Kebab.map_toLower_hyphenate_flatMap h, hwords, Kebab.flatMap_hyphen,
    ← hwords, List.intercalate_splitOn]

/-- The hyphenated name of the identifier of a name in kebab case is the name. -/
theorem kebabCase_pascalCase {name : String} (h : KebabName name) :
    kebabCase (pascalCase name) = name := by
  obtain ⟨c, below, hc, hidentifier⟩ := exists_capital h
  -- The first capital is the only one that gets no hyphen.
  have hlower : (c.toUpper :: hyphenate below).map Char.toLower = name.toList := by
    have hall := map_toLower_hyphenate_pascalCase h
    have hsplit : hyphenate (c.toUpper :: below) = '-' :: c.toUpper :: hyphenate below := by
      simp [hyphenate, (Kebab.toUpper_of_isLower hc).1]
    rw [hidentifier, hsplit] at hall
    exact (List.cons.inj hall).2
  have hascii : ∀ d ∈ c.toUpper :: hyphenate below, d.toNat < 128 := by
    have hcharacters : ∀ d ∈ c.toUpper :: below, d.toNat < 128 := fun d hd =>
      (mem_pascalCase h (hidentifier ▸ hd)).2
    obtain ⟨hfirst, hbelow⟩ := List.forall_mem_cons.1 hcharacters
    refine List.forall_mem_cons.2 ⟨hfirst, fun d hd => ?_⟩
    rcases Kebab.mem_hyphenate hd with rfl | hmem
    · decide
    · exact hbelow d hmem
  rw [kebabCase, hidentifier]
  dsimp only
  rw [Text.lower, String.toList_ofList, Text.lowerAfter_of_ascii hascii, hlower,
    String.ofList_toList]

/-! ## Paths -/

namespace KebabName

variable {path key : String} {keys : List String}

theorem ne_empty (h : KebabName key) : key ≠ "" := by
  rintro rfl
  exact absurd (h [] List.mem_cons_self) (by decide)

/-- A hyphen between two names in kebab case makes a third one. -/
theorem append (hpath : KebabName path) (hkey : KebabName key) :
    KebabName (path ++ "-" ++ key) := by
  have hparts : (path ++ "-" ++ key).toList.splitOn '-' =
      path.toList.splitOn '-' ++ key.toList.splitOn '-' := by
    rw [String.toList_append, String.toList_append, List.append_assoc]
    exact splitOn_append_cons '-' _ _
  intro word hword
  rw [hparts] at hword
  exact (List.mem_append.1 hword).elim (hpath word) (hkey word)

/-- A name in kebab case with a hyphen is a word and a name in kebab case behind it. -/
theorem exists_cut (h : KebabName path) (hyphen : '-' ∈ path.toList) :
    ∃ word rest : String, path = word ++ "-" ++ rest ∧ '-' ∉ word.toList ∧
      KebabName word ∧ KebabName rest := by
  obtain ⟨front, back, hpath, hfront⟩ := List.eq_append_cons_of_mem hyphen
  have hparts : path.toList.splitOn '-' = front.splitOn '-' ++ back.splitOn '-' := by
    rw [hpath]
    exact splitOn_append_cons '-' front back
  refine ⟨String.ofList front, String.ofList back, ?_, ?_, fun word hword => ?_,
    fun word hword => ?_⟩
  · rw [← String.toList_inj, hpath]
    simp
  · rwa [String.toList_ofList]
  · rw [String.toList_ofList] at hword
    exact h word (hparts ▸ List.mem_append_left _ hword)
  · rw [String.toList_ofList] at hword
    exact h word (hparts ▸ List.mem_append_right _ hword)

/-- Extending a path in kebab case by keys in kebab case keeps it so. -/
theorem foldl_joinPath (hpath : KebabName path) (hkeys : ∀ key ∈ keys, KebabName key) :
    KebabName (keys.foldl joinPath path) := by
  induction keys generalizing path with
  | nil => exact hpath
  | cons key rest ih =>
      obtain ⟨hkey, hrest⟩ := List.forall_mem_cons.1 hkeys
      rw [List.foldl_cons, joinPath_of_ne hpath.ne_empty]
      exact ih (hpath.append hkey) hrest

end KebabName

end DesignTokens
