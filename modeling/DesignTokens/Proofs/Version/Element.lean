import DesignTokens.Proofs.Naming
import DesignTokens.Version.Number
import Mathlib.Data.List.Basic
import Mathlib.Data.List.TakeWhile

/-!
# Version elements

The first version element of a text is the first place where an opening tag, digits and points, and
a closing tag stand (`firstElement?_eq_some_iff`). Other digits and points put into it are found
there again, since no element begins before it and ends behind its opening tag:
`firstElement?_putInProject`. A version number without a line feed is digits and points.
-/

namespace DesignTokens

namespace Version

variable {cs content before after rest : List Char} {version text : String}

/-! ## Elements at the start of a text -/

/-- The characters may be the content of a version element. -/
structure IsContent (content : List Char) : Prop where
  ne_nil : content ≠ []
  chars : ∀ c ∈ content, isElementChar c = true

/-- A version element as characters. -/
def element (content : List Char) : List Char :=
  openTag ++ (content ++ closeTag)

theorem afterText?_eq_some_iff {first : List Char} :
    afterText? first cs = some rest ↔ cs = first ++ rest := by
  unfold afterText?
  split
  · rename_i hfirst
    obtain ⟨after, rfl⟩ := List.isPrefixOf_iff_prefix.1 hfirst
    simp
  · rename_i hfirst
    refine ⟨fun h => (by cases h), fun h => (hfirst ?_).elim⟩
    exact List.isPrefixOf_iff_prefix.2 ⟨rest, h.symm⟩

/-- No tag starts with what may stand in an element. -/
theorem not_isElementChar_bracket : isElementChar '<' = false := by
  decide

theorem takeWhile_content (h : IsContent content) (rest : List Char) :
    (content ++ closeTag ++ rest).takeWhile isElementChar = content ∧
      (content ++ closeTag ++ rest).dropWhile isElementChar = closeTag ++ rest := by
  have hclose : closeTag ++ rest = '<' :: (closeTag.tail ++ rest) := rfl
  rw [List.append_assoc, List.takeWhile_append_of_pos h.chars, List.dropWhile_append_of_pos h.chars,
    hclose, List.takeWhile_cons_of_neg (ne_true_of_eq_false not_isElementChar_bracket),
    List.dropWhile_cons_of_neg (ne_true_of_eq_false not_isElementChar_bracket), List.append_nil]
  exact ⟨rfl, rfl⟩

/-- A text starts with a version element exactly when it does so character by character. -/
theorem elementAt?_eq_some_iff :
    elementAt? cs = some (content, rest) ↔ IsContent content ∧ cs = element content ++ rest := by
  constructor
  · intro h
    obtain ⟨inside, hinside, h⟩ := Option.bind_eq_some_iff.1 h
    obtain ⟨after, hafter, h⟩ := Option.bind_eq_some_iff.1 h
    rw [afterText?_eq_some_iff] at hinside hafter
    split at h
    · cases h
    · rename_i hne
      cases h
      refine ⟨⟨mt List.isEmpty_iff.2 hne, fun c hc => List.mem_takeWhile_imp hc⟩, ?_⟩
      rw [hinside, element, List.append_assoc, List.append_assoc, ← hafter,
        List.takeWhile_append_dropWhile]
  · rintro ⟨hcontent, rfl⟩
    obtain ⟨htake, hdrop⟩ := takeWhile_content hcontent rest
    have hinside : afterText? openTag (element content ++ rest) =
        some (content ++ closeTag ++ rest) :=
      afterText?_eq_some_iff.2 (List.append_assoc _ _ _)
    have hafter : afterText? closeTag (closeTag ++ rest) = some rest :=
      afterText?_eq_some_iff.2 rfl
    simp only [elementAt?, hinside, htake, hdrop, hafter, Option.bind_eq_bind, Option.bind_some]
    exact if_neg (mt List.isEmpty_iff.1 hcontent.ne_nil)

/-- Nothing but the start of an element and that of its closing tag is a bracket. -/
theorem bracket_not_mem (h : IsContent content) :
    '<' ∉ openTag.tail ++ content ∧ '<' ∉ closeTag.tail := by
  have htags : '<' ∉ openTag.tail ∧ '<' ∉ closeTag.tail := by decide
  refine ⟨fun hmem => ?_, htags.2⟩
  obtain hopen | hinside := List.mem_append.1 hmem
  · exact htags.1 hopen
  · cases (h.chars '<' hinside).symm.trans not_isElementChar_bracket

/-- No element has an opening tag in it after its start. -/
theorem element_ne_cut {cut other : List Char} (h : IsContent content) (hne : before ≠ [])
    (hcut : element content = before ++ cut) (hcutNe : cut ≠ []) :
    element other ++ rest ≠ cut ++ after := by
  intro hafter
  obtain ⟨c, cut, rfl⟩ := List.exists_cons_of_ne_nil hcutNe
  obtain ⟨b, before, rfl⟩ := List.exists_cons_of_ne_nil hne
  obtain rfl : '<' = c := (List.cons.inj hafter).1
  have hinside : openTag.tail ++ content ++ '<' :: closeTag.tail = before ++ '<' :: cut :=
    (List.append_assoc _ _ _).trans (List.cons.inj hcut).2
  obtain ⟨hfirst, hlast⟩ := bracket_not_mem h
  obtain ⟨-, -, rfl⟩ := (List.append_cons_inj_of_notMem hfirst hlast).1 hinside
  cases (List.cons.inj hafter).2

/-- A text that goes on with an element starts with another one exactly when it does so itself. -/
theorem elementAt?_append_element (hne : before ≠ []) (other rest : List Char) :
    elementAt? (before ++ (element other ++ rest)) = none ↔ elementAt? before = none := by
  constructor
  · intro h
    by_contra hsome
    obtain ⟨⟨content, after⟩, hat⟩ := Option.ne_none_iff_exists'.1 hsome
    obtain ⟨hcontent, heq⟩ := elementAt?_eq_some_iff.1 hat
    have hmore : elementAt? (before ++ (element other ++ rest)) =
        some (content, after ++ (element other ++ rest)) :=
      elementAt?_eq_some_iff.2 ⟨hcontent, by rw [heq, List.append_assoc]⟩
    cases h.symm.trans hmore
  · intro h
    by_contra hsome
    obtain ⟨⟨content, after⟩, hat⟩ := Option.ne_none_iff_exists'.1 hsome
    obtain ⟨hcontent, heq⟩ := elementAt?_eq_some_iff.1 hat
    have hnone (extra : List Char) : before ≠ element content ++ extra := by
      intro hextra
      cases h.symm.trans (elementAt?_eq_some_iff.2 ⟨hcontent, hextra⟩)
    -- The element ends in the text itself, or is cut off by the other one.
    obtain ⟨cut, hcut, hafter⟩ | ⟨extra, hextra, -⟩ := List.append_eq_append_iff.1 heq
    · by_cases hnil : cut = []
      · exact hnone [] (by rw [hcut, hnil, List.append_nil, List.append_nil])
      · exact element_ne_cut hcontent hne hcut hnil hafter
    · exact hnone extra hextra

/-! ## First elements -/

theorem firstElement?_cons_of_none {c : Char} (h : elementAt? (c :: cs) = none) :
    firstElement? (c :: cs) =
      (firstElement? cs).map fun e => { e with before := c :: e.before } := by
  rw [firstElement?, h]

theorem firstElement?_cons_eq_none_iff {c : Char} :
    firstElement? (c :: cs) = none ↔ elementAt? (c :: cs) = none ∧ firstElement? cs = none := by
  rw [firstElement?]
  cases elementAt? (c :: cs) with
  | none => simp
  | some found => simp

/-- The first version element of a text is the one before which the text has none. -/
theorem firstElement?_eq_some_iff {e : Element} :
    firstElement? cs = some e ↔ IsContent e.content ∧ firstElement? e.before = none ∧
      cs = e.before ++ (element e.content ++ e.after) := by
  constructor
  · intro h
    induction cs generalizing e with
    | nil => cases h
    | cons c cs ih =>
        cases hat : elementAt? (c :: cs) with
        | some found =>
            obtain ⟨content, after⟩ := found
            rw [firstElement?, hat] at h
            cases h
            obtain ⟨hcontent, heq⟩ := elementAt?_eq_some_iff.1 hat
            exact ⟨hcontent, rfl, heq⟩
        | none =>
            rw [firstElement?_cons_of_none hat] at h
            obtain ⟨e, he, rfl⟩ := Option.map_eq_some_iff.1 h
            obtain ⟨hcontent, hbefore, rfl⟩ := ih he
            refine ⟨hcontent, firstElement?_cons_eq_none_iff.2 ⟨?_, hbefore⟩, rfl⟩
            exact (elementAt?_append_element (List.cons_ne_nil _ _) _ _).1 hat
  · rintro ⟨hcontent, hbefore, rfl⟩
    obtain ⟨before, content, after⟩ := e
    dsimp only at hcontent hbefore ⊢
    induction before with
    | nil =>
        have hat : elementAt? (element content ++ after) = some (content, after) :=
          elementAt?_eq_some_iff.2 ⟨hcontent, rfl⟩
        have hcons : element content ++ after =
            '<' :: (openTag.tail ++ (content ++ closeTag) ++ after) := rfl
        rw [List.nil_append]
        rw [hcons] at hat ⊢
        rw [firstElement?, hat]
    | cons c before ih =>
        obtain ⟨hat, hbefore⟩ := firstElement?_cons_eq_none_iff.1 hbefore
        have hnone : elementAt? (c :: (before ++ (element content ++ after))) = none :=
          (elementAt?_append_element (List.cons_ne_nil _ _) _ _).2 hat
        rw [List.cons_append, firstElement?_cons_of_none hnone, ih hbefore]
        rfl

/-! ## Putting versions in -/

/-- Only the content of the first element is another one. -/
theorem putInProject_of_firstElement? {e : Element} (h : firstElement? text.toList = some e) :
    (putInProject version text).toList =
      e.before ++ (element version.toList ++ e.after) := by
  rw [putInProject, h]
  simp [element]

/-- Digits and points that are put into the first version element are found there. -/
theorem firstElement?_putInProject {e : Element} (h : firstElement? text.toList = some e)
    (hversion : IsContent version.toList) :
    firstElement? (putInProject version text).toList =
      some { e with content := version.toList } := by
  obtain ⟨-, hbefore, -⟩ := firstElement?_eq_some_iff.1 h
  rw [putInProject_of_firstElement? h]
  exact firstElement?_eq_some_iff.2 ⟨hversion, hbefore, rfl⟩

/-- Digits and points that are put into a project file with a version are its version. -/
theorem ofProject?_putInProject {old : String} (h : ofProject? text = some old)
    (hversion : IsContent version.toList) :
    ofProject? (putInProject version text) = some version := by
  obtain ⟨e, he, -⟩ := Option.map_eq_some_iff.1 h
  rw [ofProject?, firstElement?_putInProject he hversion]
  exact congrArg some String.ofList_toList

/-- The version of a project file is digits and points. -/
theorem isContent_of_ofProject? (h : ofProject? text = some version) :
    IsContent version.toList := by
  obtain ⟨e, he, rfl⟩ := Option.map_eq_some_iff.1 h
  rw [String.toList_ofList]
  exact (firstElement?_eq_some_iff.1 he).1

/-- What is put into a project file brings no character but its own. -/
theorem not_mem_putInProject {c : Char} (htext : c ∉ text.toList) (hversion : c ∉ version.toList) :
    c ∉ (putInProject version text).toList := by
  cases he : firstElement? text.toList with
  | none => rwa [putInProject, he]
  | some e =>
      have heq := (firstElement?_eq_some_iff.1 he).2.2
      rw [heq] at htext
      rw [putInProject_of_firstElement? he]
      simp only [element, List.mem_append, not_or] at htext ⊢
      exact ⟨htext.1, ⟨htext.2.1.1, hversion, htext.2.1.2.2⟩, htext.2.2⟩

/-! ## Version numbers -/

/-- A version number is digits and points before its final line feed. -/
theorem isContent_dropFinalLineFeed (h : isValid version = true) :
    IsContent (Text.dropFinalLineFeed version.toList) := by
  unfold isValid at h
  generalize Text.dropFinalLineFeed version.toList = cs at h ⊢
  simp only [Bool.and_eq_true, beq_iff_eq, List.all_eq_true] at h
  obtain ⟨hlength, hnumbers⟩ := h
  refine ⟨fun hnil => ?_, fun c hc => ?_⟩
  · rw [hnil] at hlength
    cases hlength
  · by_cases hpoint : c = '.'
    · rw [hpoint]
      rfl
    · obtain ⟨part, hpart, hmem⟩ := (mem_iff_exists_mem_splitOn hpoint cs).1 hc
      have hnumber := hnumbers part hpart
      simp only [Text.isNumber, Bool.and_eq_true, List.all_eq_true] at hnumber
      simp [isElementChar, hnumber.2 c hmem]

/-- A version number without a line feed is digits and points. -/
theorem isContent_of_isValid (h : isValid version = true) (hline : '\n' ∉ version.toList) :
    IsContent version.toList := by
  have hdrop : Text.dropFinalLineFeed version.toList = version.toList :=
    if_neg fun hlast => hline (List.mem_of_getLast? hlast)
  exact hdrop ▸ isContent_dropFinalLineFeed h

/-- No version number has a carriage return. -/
theorem carriageReturn_not_mem_of_isValid (h : isValid version = true) :
    '\r' ∉ version.toList := by
  intro hmem
  have hkept : '\r' ∈ Text.dropFinalLineFeed version.toList := by
    unfold Text.dropFinalLineFeed
    split
    · rename_i hlast
      obtain ⟨front, hfront⟩ := List.getLast?_eq_some_iff.1 hlast
      rw [hfront] at hmem ⊢
      simpa using hmem
    · exact hmem
  cases (isContent_dropFinalLineFeed h).chars '\r' hkept

end Version

end DesignTokens
