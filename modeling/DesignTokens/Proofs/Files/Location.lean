import DesignTokens.Proofs.Files.Disk
import DesignTokens.Proofs.Naming

/-!
# Locations below a folder

A file that is named below a folder is at the location of the folder with the name added to it. So
two files with different names below one folder have different locations, whatever the folder is:
`names_of_locate`. Whatever a text is, a path made from it keeps the ending that is added to the
text: `exists_getLast?_join`.
-/

namespace DesignTokens

/-- The text is the name of one file or folder. -/
structure Path.IsName (text : String) : Prop where
  slash : '/' ∉ text.toList
  ne_empty : text ≠ ""
  ne_here : text ≠ "."
  ne_above : text ≠ ".."

namespace Path

variable {base : Path} {name : String}

instance (text : String) : Decidable (IsName text) :=
  decidable_of_iff ('/' ∉ text.toList ∧ text ≠ "" ∧ text ≠ "." ∧ text ≠ "..")
    ⟨fun h => ⟨h.1, h.2.1, h.2.2.1, h.2.2.2⟩, fun h => ⟨h.1, h.2, h.3, h.4⟩⟩

/-- A text without slashes that has an ending is a name. -/
theorem isName_append {stem ending : String} (hstem : '/' ∉ stem.toList)
    (hending : '/' ∉ ending.toList) (hlong : 2 < ending.length) : IsName (stem ++ ending) := by
  have hne {short : String} (hshort : short.length ≤ 2) : stem ++ ending ≠ short := by
    rintro rfl
    rw [String.length_append] at hshort
    omega
  refine ⟨?_, hne (by decide), hne (by decide), hne (by decide)⟩
  rw [String.toList_append, List.mem_append, not_or]
  exact ⟨hstem, hending⟩

/-- A name is a part of its own. -/
theorem join_of_isName (base : Path) (h : IsName name) :
    base.join name = { base with parts := base.parts ++ [name] } := by
  have hslash (rest : List Char) : name.toList ≠ '/' :: rest := fun heq =>
    h.slash (heq ▸ List.mem_cons_self)
  have hanchor : anchorOf name.toList = "" := by
    unfold anchorOf
    split
    · exact absurd ‹_› (hslash _)
    · exact absurd ‹_› (hslash _)
    · exact absurd ‹_› (hslash _)
    · rfl
  have hparts : (ofText name).parts = [name] := by
    have hpart : isPart name = true := by
      simp [isPart, h.ne_empty, h.ne_here]
    rw [ofText, List.splitOn_eq_singleton h.slash, List.map_singleton, String.ofList_toList,
      List.filter_cons_of_pos hpart, List.filter_nil]
  have hrelative : (ofText name).anchor = "" := hanchor
  rw [join, hrelative, if_pos rfl, hparts]

/-- A text of several characters is a part. -/
theorem isPart_of_length {part : String} (h : 1 < part.length) : isPart part = true := by
  have hne {short : String} (hshort : short.length ≤ 1) : part ≠ short := by
    rintro rfl
    omega
  rw [isPart, Bool.and_eq_true_iff, bne_iff_ne, bne_iff_ne]
  exact ⟨hne (by decide), hne (by decide)⟩

/-- An ending without slashes extends the last segment of a text. -/
theorem exists_splitOn_append (cs : List Char) :
    ∃ first front, ∀ ending : List Char, '/' ∉ ending →
      (cs ++ ending).splitOn '/' = first ++ [front ++ ending] := by
  by_cases hslash : '/' ∈ cs
  · obtain ⟨after, before, hcs, hafter⟩ := List.eq_append_cons_of_mem (List.mem_reverse.2 hslash)
    replace hcs := congrArg List.reverse hcs
    simp only [List.reverse_reverse, List.reverse_append, List.reverse_cons, List.append_assoc,
      List.singleton_append] at hcs
    subst hcs
    refine ⟨before.reverse.splitOn '/', after.reverse, fun ending hending => ?_⟩
    have hlast : '/' ∉ after.reverse ++ ending := by
      rw [List.mem_append, List.mem_reverse, not_or]
      exact ⟨hafter, hending⟩
    rw [List.append_assoc, List.cons_append, splitOn_append_cons, List.splitOn_eq_singleton hlast]
  · refine ⟨[], cs, fun ending hending => List.splitOn_eq_singleton ?_⟩
    rw [List.mem_append, not_or]
    exact ⟨hslash, hending⟩

/-- The last part of a path that is made from a text and an ending has this ending. What comes
before it is the same for every ending. -/
theorem exists_getLast?_join (stem : String) :
    ∃ front : String, ∀ (base : Path) {ending : String},
      '/' ∉ ending.toList ∧ 1 < ending.length →
        (base.join (stem ++ ending)).parts.getLast? = some (front ++ ending) := by
  obtain ⟨first, front, hsplit⟩ := exists_splitOn_append stem.toList
  refine ⟨String.ofList front, fun base ending hending => ?_⟩
  obtain ⟨hslash, hlong⟩ := hending
  have hpart : isPart (String.ofList front ++ ending) = true := by
    refine isPart_of_length ?_
    rw [String.length_append]
    omega
  have hchild : (ofText (stem ++ ending)).parts.getLast? =
      some (String.ofList front ++ ending) := by
    rw [ofText, String.toList_append, hsplit _ hslash, List.map_append, List.map_singleton,
      String.ofList_append, String.ofList_toList, List.filter_append,
      List.filter_cons_of_pos hpart, List.filter_nil]
    exact List.getLast?_concat
  unfold join
  dsimp only
  split
  · rw [List.getLast?_append, hchild, Option.some_or]
  · exact hchild

end Path

namespace Disk

variable {disk : Disk} {location above : Location} {part : String}

/-- Parts are followed one after the other. -/
theorem follow_append (disk : Disk) (location : Location) (parts more : List String) :
    disk.follow location (parts ++ more) =
      disk.follow location parts >>= fun above => disk.follow above more := by
  induction parts generalizing location with
  | nil => rfl
  | cons part parts ih =>
      rw [List.cons_append, follow, follow]
      cases disk.entry? location with
      | none => rfl
      | some entry =>
          cases entry with
          | file octets => rfl
          | folder =>
              dsimp only
              split
              · rfl
              · exact ih _

/-- A name leads from a location to the one with the name added. -/
theorem follow_name (h : Path.IsName part) (hfollow : disk.follow above [part] = .ok location) :
    location = above ++ [part] := by
  rw [follow] at hfollow
  cases hentry : disk.entry? above with
  | none =>
      rw [hentry] at hfollow
      cases hfollow
  | some entry =>
      rw [hentry] at hfollow
      cases entry with
      | file octets => cases hfollow
      | folder =>
          dsimp only at hfollow
          split at hfollow
          · cases hfollow
          · rw [if_neg h.ne_above, follow] at hfollow
            exact (Except.ok.inj hfollow).symm

/-- A file named below a folder of a base is located where its two names lead from the base. -/
theorem locate_below {base : Path} {folder name : String} (hfolder : Path.IsName folder)
    (hname : Path.IsName name) (h : disk.locate ((base.join folder).join name) = .ok location) :
    ∃ root, disk.follow (if base.anchor = "" then disk.here else []) base.parts = .ok root ∧
      location = root ++ [folder, name] := by
  rw [Path.join_of_isName _ hname, Path.join_of_isName _ hfolder] at h
  unfold locate at h
  split at h
  · cases h
  · dsimp only at h
    rw [follow_append, bind_eq_ok_iff] at h
    obtain ⟨above, habove, hlast⟩ := h
    rw [follow_append, bind_eq_ok_iff] at habove
    obtain ⟨root, hroot, hfirst⟩ := habove
    refine ⟨root, hroot, ?_⟩
    rw [follow_name hname hlast, follow_name hfolder hfirst, List.append_assoc]
    rfl

/-- Files that are named below folders of one base are at one location only when their names and
those of their folders are the same. -/
theorem names_of_locate {base : Path} {folder name folder' name' : String}
    (hfolder : Path.IsName folder) (hname : Path.IsName name) (hfolder' : Path.IsName folder')
    (hname' : Path.IsName name')
    (h : disk.locate ((base.join folder).join name) = .ok location)
    (h' : disk.locate ((base.join folder').join name') = .ok location) :
    folder = folder' ∧ name = name' := by
  obtain ⟨root, hroot, rfl⟩ := locate_below hfolder hname h
  obtain ⟨root', hroot', hsame⟩ := locate_below hfolder' hname' h'
  obtain rfl : root = root' := Except.ok.inj (hroot.symm.trans hroot')
  simpa using hsame

end Disk

end DesignTokens
