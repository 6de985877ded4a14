import DesignTokens.Naming

/-!
# Joined paths and names

Extending a path by one key after the other joins all keys with the separator (`foldl_joinWith`),
which is a hyphen for derived paths (`foldl_joinPath`) and a dot for dotted ones. Only a path that
is still empty shows whether a key is. Keys without separators are read back from what joins them
(`splitOn_intercalate`), so keys without hyphens are told by their path: `eq_of_foldl_joinPath_eq`.
What the upper case of a character can be (`Text.upperChar_cases`) tells what identifiers are made
of. That of a name without slashes has no slashes, so it can name a file:
`slash_not_mem_pascalCase`.
-/

namespace DesignTokens

variable {separator path key : String} {keys : List String}

/-! ## Joining with a separator -/

/-- A key below a path whose parts stand around a separator. -/
def joinWith (separator path key : String) : String :=
  if path = "" then key else path ++ separator ++ key

theorem joinWith_of_ne (h : path ≠ "") (key : String) :
    joinWith separator path key = path ++ separator ++ key :=
  if_neg h

/-- A joined path is empty only when both of its parts are. -/
theorem joinWith_ne_empty (h : path ≠ "" ∨ key ≠ "") : joinWith separator path key ≠ "" := by
  by_cases hpath : path = ""
  · subst hpath
    exact h.resolve_left fun hne => hne rfl
  · rw [joinWith_of_ne hpath]
    simp [hpath]

/-- Extending a path by keys joins them with the separator. -/
theorem foldl_joinWith (hkeys : keys ≠ []) (h : path ≠ "" ∨ "" ∉ keys) :
    keys.foldl (joinWith separator) path =
      joinWith separator path (separator.intercalate keys) := by
  induction keys generalizing path with
  | nil => exact absurd rfl hkeys
  | cons key rest ih =>
      cases rest with
      | nil => rw [List.foldl_cons, List.foldl_nil, String.intercalate_singleton]
      | cons next rest =>
          have hjoined : joinWith separator path key ≠ "" := by
            refine joinWith_ne_empty (h.imp_right fun hmem heq => hmem ?_)
            rw [heq]
            exact List.mem_cons_self
          rw [List.foldl_cons, ih (List.cons_ne_nil _ _) (Or.inl hjoined), joinWith_of_ne hjoined,
            String.intercalate_cons_cons]
          by_cases hpath : path = ""
          · subst hpath
            rfl
          · rw [joinWith_of_ne hpath, joinWith_of_ne hpath]
            simp only [String.append_assoc]

/-- Keys without a separator are read back from the text that joins them with it. -/
theorem splitOn_intercalate {separator : Char} (hkeys : keys ≠ [])
    (h : ∀ key ∈ keys, separator ∉ key.toList) :
    ((String.singleton separator).intercalate keys).toList.splitOn separator =
      keys.map String.toList := by
  rw [String.toList_intercalate, String.toList_singleton]
  exact List.splitOn_intercalate separator (List.forall_mem_map.2 h)
    (mt List.map_eq_nil_iff.1 hkeys)

/-! ## Hyphens -/

@[simp] theorem joinPath_empty (key : String) : joinPath "" key = key := rfl

theorem joinPath_of_ne (h : path ≠ "") (key : String) : joinPath path key = path ++ "-" ++ key :=
  joinWith_of_ne h key

/-- Below one path, different keys give different paths. -/
theorem joinPath_injective (path : String) : Function.Injective (joinPath path) := by
  intro key other h
  by_cases hpath : path = ""
  · subst hpath
    exact h
  · rw [joinPath_of_ne hpath, joinPath_of_ne hpath] at h
    simpa using h

theorem joinPath_ne_empty (h : path ≠ "" ∨ key ≠ "") : joinPath path key ≠ "" :=
  joinWith_ne_empty h

/-- A key that is not empty may be joined to what follows it first. -/
theorem joinPath_assoc (h : key ≠ "") (other : String) :
    joinPath (joinPath path key) other = joinPath path (joinPath key other) := by
  by_cases hpath : path = ""
  · subst hpath
    rfl
  · rw [joinPath_of_ne (joinPath_ne_empty (Or.inl hpath)), joinPath_of_ne hpath,
      joinPath_of_ne hpath, joinPath_of_ne h]
    simp only [String.append_assoc]

/-- Extending a path by keys joins them with hyphens. -/
theorem foldl_joinPath (hkeys : keys ≠ []) (h : path ≠ "" ∨ "" ∉ keys) :
    keys.foldl joinPath path = joinPath path ("-".intercalate keys) :=
  foldl_joinWith hkeys h

/-! ## Keys without hyphens -/

/-- The key is one word of a path: it is not empty and has no hyphen. -/
structure PlainKey (key : String) : Prop where
  ne_empty : key ≠ ""
  hyphen : '-' ∉ key.toList

instance (key : String) : Decidable (PlainKey key) :=
  decidable_of_iff (key ≠ "" ∧ '-' ∉ key.toList) ⟨fun h => ⟨h.1, h.2⟩, fun h => ⟨h.1, h.2⟩⟩

/-- Below one path, lists of plain keys that lead to the same path are the same. -/
theorem eq_of_foldl_joinPath_eq {others : List String} (hkeys : keys ≠ []) (hothers : others ≠ [])
    (h : ∀ key ∈ keys, PlainKey key) (hplain : ∀ key ∈ others, PlainKey key)
    (hpath : keys.foldl joinPath path = others.foldl joinPath path) : keys = others := by
  have hempty {list : List String} (hlist : ∀ key ∈ list, PlainKey key) : "" ∉ list :=
    fun hmem => (hlist "" hmem).ne_empty rfl
  rw [foldl_joinPath hkeys (Or.inr (hempty h)), foldl_joinPath hothers (Or.inr (hempty hplain))]
    at hpath
  have hjoined : "-".intercalate keys = "-".intercalate others := joinPath_injective path hpath
  have hread {list : List String} (hne : list ≠ []) (hlist : ∀ key ∈ list, PlainKey key) :
      ("-".intercalate list).toList.splitOn '-' = list.map String.toList :=
    splitOn_intercalate hne fun key hkey => (hlist key hkey).hyphen
  have hwords : keys.map String.toList = others.map String.toList := by
    rw [← hread hkeys h, hjoined, hread hothers hplain]
  exact (List.map_inj_right fun _ _ => String.toList_inj.1).1 hwords

/-! ## Characters of names -/

/-- A separator separates what stands before it from what stands after it. -/
theorem splitOn_append_cons (separator : Char) (before after : List Char) :
    (before ++ separator :: after).splitOn separator =
      before.splitOn separator ++ after.splitOn separator :=
  List.splitOnP_append_cons before after (beq_self_eq_true separator)

/-- A character other than the separator occurs in a text exactly when it occurs in a part. -/
theorem mem_iff_exists_mem_splitOn {c separator : Char} (hne : c ≠ separator) (cs : List Char) :
    c ∈ cs ↔ ∃ part ∈ cs.splitOn separator, c ∈ part := by
  have hjoined (parts : List (List Char)) :
      c ∈ [separator].intercalate parts ↔ ∃ part ∈ parts, c ∈ part := by
    induction parts with
    | nil => simp
    | cons part rest ih =>
        cases rest with
        | nil => simp
        | cons next rest =>
            rw [List.intercalate_cons_cons, List.mem_append, List.mem_append, ih]
            simp [hne]
  rw [← hjoined, List.intercalate_splitOn]

/-- A character other than the null character is made from its own code point only. -/
theorem toNat_of_ofNat_eq {n : Nat} {c : Char} (hnull : c ≠ '\x00') (h : Char.ofNat n = c) :
    c.toNat = n := by
  by_cases hvalid : n.isValidChar
  · have hchar : Char.ofNat n = Char.ofNatAux n hvalid := dif_pos hvalid
    rw [← h, hchar]
    rfl
  · have hzero : Char.ofNat n = '\x00' := dif_neg hvalid
    exact absurd (h.symm.trans hzero) hnull

/-- What holds of the first 128 code points holds of every ASCII character. -/
theorem Text.forall_ascii {p : Char → Prop} (h : ∀ n < 128, p (Char.ofNat n)) {c : Char}
    (hc : c.toNat < 128) : p c := by
  have hpoint := h c.toNat hc
  rwa [Char.ofNat_toNat] at hpoint

/-- The upper case of a character is its ASCII capital, its expansion, its image in a run, or the
character itself. -/
theorem Text.upperChar_cases (c : Char) :
    (c.toNat < 128 ∧ upperChar c = [c.toUpper]) ∨
      (∃ entry ∈ upperExpansions, upperChar c = entry.2.map Char.ofNat) ∨
      (∃ r ∈ upperRuns, r.applies c.toNat ∧ upperChar c = [Char.ofNat (r.image c.toNat)]) ∨
      (128 ≤ c.toNat ∧ upperChar c = [c]) := by
  unfold upperChar
  split
  · rename_i hascii
    exact Or.inl ⟨hascii, rfl⟩
  · rename_i hbeyond
    refine Or.inr ?_
    unfold mapCase
    split
    · rename_i image hlookup
      obtain ⟨before, after, htable, -⟩ := List.lookup_eq_some_iff.1 hlookup
      refine Or.inl ⟨(c.toNat, image), ?_, rfl⟩
      rw [htable]
      exact List.mem_append_right _ List.mem_cons_self
    · split
      · rename_i r hr
        have happlies := List.find?_some hr
        exact Or.inr (Or.inl ⟨r, List.mem_of_find?_eq_some hr, happlies, rfl⟩)
      · exact Or.inr (Or.inr ⟨Nat.le_of_not_lt hbeyond, rfl⟩)

/-- A run maps the code points between its ends, each as far as its shift says. -/
theorem Text.CaseRun.image_of_applies {r : CaseRun} {n : Nat} (h : r.applies n) :
    r.first ≤ n ∧ n ≤ r.last ∧ r.image n = ((n : Int) + r.shift).toNat := by
  simp only [applies, Bool.and_eq_true, decide_eq_true_eq] at h
  exact ⟨h.1.1, h.1.2, rfl⟩

/-- The upper case of a character has a slash only for a slash. -/
theorem eq_slash_of_mem_upperChar {c : Char} (h : '/' ∈ Text.upperChar c) : c = '/' := by
  -- No entry of the tables has a slash as its image.
  rcases Text.upperChar_cases c with ⟨hascii, hupper⟩ | ⟨entry, hentry, hupper⟩ |
    ⟨r, hr, happlies, hupper⟩ | ⟨-, hupper⟩ <;> rw [hupper] at h
  · refine Text.forall_ascii (p := fun c => c.toUpper = '/' → c = '/') ?_ hascii
      (List.mem_singleton.1 h).symm
    decide +kernel
  · have hnone : ∀ entry ∈ Text.upperExpansions, '/' ∉ entry.2.map Char.ofNat := by
      decide +kernel
    exact absurd h (hnone entry hentry)
  · have habove : ∀ r ∈ Text.upperRuns, 47 < r.first + r.shift := by
      decide +kernel
    have hpoint := toNat_of_ofNat_eq (by decide) (List.mem_singleton.1 h).symm
    obtain ⟨hfirst, -, himage⟩ := Text.CaseRun.image_of_applies happlies
    have hrun := habove r hr
    rw [himage, show '/'.toNat = 47 from rfl] at hpoint
    omega
  · exact (List.mem_singleton.1 h).symm

/-- The identifier of a name without slashes has no slashes. -/
theorem slash_not_mem_pascalCase {name : String} (h : '/' ∉ name.toList) :
    '/' ∉ (pascalCase name).toList := by
  intro hmem
  rw [pascalCase, String.toList_ofList, List.mem_flatMap] at hmem
  obtain ⟨part, hpart, hcapital⟩ := hmem
  cases part with
  | nil => cases hcapital
  | cons c rest =>
      have hin {d : Char} (hd : d ∈ c :: rest) (hne : d ≠ '-') : d ∈ name.toList :=
        (mem_iff_exists_mem_splitOn hne _).2 ⟨c :: rest, hpart, hd⟩
      rcases List.mem_append.1 hcapital with hupper | hrest
      · obtain rfl := eq_slash_of_mem_upperChar hupper
        exact h (hin List.mem_cons_self (by decide))
      · exact h (hin (List.mem_cons_of_mem _ hrest) (by decide))

end DesignTokens
