import DesignTokens.Files.Disk
import DesignTokens.Proofs.Outcome
import Mathlib.Data.List.Nodup

/-!
# What writing on a disk keeps

`Wrote before after written` says what files written one after another leave on a disk: folders
stay, and a file stays as it was unless one of the files written is at its location. A file written
holds its text unless a later one is at its location, so where all locations differ each file does
(`Wrote.held`). The relation is kept by every request and is closed under sequence (`Wrote.append`).
-/

namespace DesignTokens

namespace Disk

variable {disk before after : Disk} {location other : Location} {entry : DiskEntry} {path : Path}

@[simp] theorem here_put (disk : Disk) (location : Location) (entry : DiskEntry) :
    (disk.put location entry).here = disk.here := rfl

/-- Entries at other locations are found as before when those at one location are left out. -/
theorem lookup_filter_of_ne (h : other ≠ location) (entries : List (Location × DiskEntry)) :
    (entries.filter fun old => old.1 != location).lookup other = entries.lookup other := by
  induction entries with
  | nil => rfl
  | cons old rest ih =>
      obtain ⟨place, entry⟩ := old
      by_cases hplace : place = location
      · have hne : (other == place) = false := by simpa [hplace] using h
        rw [List.filter_cons_of_neg (by simpa using hplace), ih, List.lookup_cons, hne]
      · rw [List.filter_cons_of_pos (by simpa using hplace), List.lookup_cons, List.lookup_cons, ih]

/-- Where something is put, other locations stay as they are. -/
theorem find_put_of_ne (h : other ≠ location) :
    Disk.entry? (disk.put location entry) other = disk.entry? other := by
  unfold entry?
  rw [here_put]
  have hne : (other == location) = false := by simpa using h
  rw [put, List.lookup_cons, hne, lookup_filter_of_ne h]

/-- What is put at a location stands there, unless the location is the folder in use or above it. -/
theorem find_put_self (h : disk.entry? location ≠ some .folder) :
    Disk.entry? (disk.put location entry) location = some entry := by
  unfold entry? at h ⊢
  rw [here_put]
  split
  · rename_i habove
    rw [if_pos habove] at h
    exact absurd rfl h
  · rw [put, List.lookup_cons, beq_self_eq_true]

/-! ## Locations -/

/-- Parts lead to the same location on a disk with more folders. -/
theorem follow_of_folders (hfolders : ∀ location, before.entry? location = some .folder →
      after.entry? location = some .folder) {parts : List String}
    (h : before.follow location parts = .ok other) : after.follow location parts = .ok other := by
  -- Only folders are passed on the way, and they are folders afterwards too.
  induction parts generalizing location with
  | nil => exact h
  | cons part parts ih =>
      rw [follow] at h ⊢
      cases hentry : before.entry? location with
      | none => rw [hentry] at h; cases h
      | some entry =>
          rw [hentry] at h
          cases entry with
          | file octets => cases h
          | folder =>
              rw [hfolders location hentry]
              by_cases hlong : nameLimit < part.utf8ByteSize
              · rw [if_pos hlong] at h
                cases h
              · rw [if_neg hlong] at h ⊢
                exact ih h

/-- A path has the same location on a disk with more folders. -/
theorem locate_of_folders (hhere : after.here = before.here)
    (hfolders : ∀ location, before.entry? location = some .folder →
      after.entry? location = some .folder)
    (h : before.locate path = .ok location) : after.locate path = .ok location := by
  unfold locate at h ⊢
  split at h
  · cases h
  · rename_i hlong
    rw [if_neg hlong, hhere]
    exact follow_of_folders hfolders h

/-! ## Accepted requests -/

/-- Octets are read from a path exactly when they are the file at its location. -/
theorem readOctets_eq_ok_iff {octets : ByteArray} :
    disk.readOctets path = .ok octets ↔
      ∃ location, disk.locate path = .ok location ∧
        disk.entry? location = some (.file octets) := by
  rw [readOctets, bind_eq_ok_iff]
  refine exists_congr fun location => and_congr_right fun _ => ?_
  cases disk.entry? location with
  | none => simp
  | some entry => cases entry <;> simp

/-- Reading from a path depends on its location only. -/
theorem readOctets_congr {path other : Path} (h : disk.locate path = disk.locate other) :
    disk.readOctets path = disk.readOctets other := by
  rw [readOctets, readOctets, h]

/-- A folder is added at a path exactly when nothing stands at its location. -/
theorem addFolder_eq_ok_iff {changed : Disk} :
    disk.addFolder path = .ok changed ↔
      ∃ location, disk.locate path = .ok location ∧ disk.entry? location = none ∧
        disk.put location .folder = changed := by
  rw [addFolder, bind_eq_ok_iff]
  refine exists_congr fun location => and_congr_right fun _ => ?_
  cases disk.entry? location <;> simp

/-- Octets are written to a path exactly when no folder stands at its location. -/
theorem writeOctets_eq_ok_iff {octets : ByteArray} {changed : Disk} :
    disk.writeOctets path octets = .ok changed ↔
      ∃ location, disk.locate path = .ok location ∧ disk.entry? location ≠ some .folder ∧
        disk.put location (.file octets) = changed := by
  rw [writeOctets, bind_eq_ok_iff]
  refine exists_congr fun location => and_congr_right fun _ => ?_
  cases disk.entry? location with
  | none => simp
  | some entry => cases entry <;> simp

/-! ## Sequences of written files -/

/-- What files written in order leave on a disk. -/
structure Wrote (before after : Disk) (written : List (Path × String)) : Prop where
  here : after.here = before.here
  folders : ∀ location, before.entry? location = some .folder →
    after.entry? location = some .folder
  located : ∀ file ∈ written, ∃ location, after.locate file.1 = .ok location
  kept : ∀ location octets, before.entry? location = some (.file octets) →
    (∀ file ∈ written, after.locate file.1 ≠ .ok location) →
      after.entry? location = some (.file octets)
  last : ∀ first file later, written = first ++ file :: later →
    (∀ other ∈ later, after.locate other.1 ≠ after.locate file.1) →
      after.readOctets file.1 = .ok file.2.toUTF8

namespace Wrote

variable {middle : Disk} {first second written : List (Path × String)}

/-- Without a file written nothing changes. -/
theorem refl (disk : Disk) : Wrote disk disk [] where
  here := rfl
  folders _ h := h
  located _ h := absurd h List.not_mem_nil
  kept _ _ h _ := h
  last _ _ _ h := absurd h.symm (List.append_ne_nil_of_right_ne_nil _ (List.cons_ne_nil _ _))

/-- A path keeps its location. -/
theorem locate (h : Wrote before after written) (hpath : before.locate path = .ok location) :
    after.locate path = .ok location :=
  locate_of_folders h.here h.folders hpath

/-- A file that is not written again keeps its content. -/
theorem readOctets (h : Wrote before after written) {octets : ByteArray}
    (hread : before.readOctets path = .ok octets)
    (hother : ∀ file ∈ written, after.locate file.1 ≠ after.locate path) :
    after.readOctets path = .ok octets := by
  obtain ⟨location, hlocate, hentry⟩ := readOctets_eq_ok_iff.1 hread
  have hafter := h.locate hlocate
  rw [hafter] at hother
  exact readOctets_eq_ok_iff.2 ⟨location, hafter, h.kept location octets hentry hother⟩

/-- Files written after others are written after them. -/
theorem append (hfirst : Wrote before middle first) (hsecond : Wrote middle after second) :
    Wrote before after (first ++ second) where
  here := hsecond.here.trans hfirst.here
  folders location h := hsecond.folders location (hfirst.folders location h)
  located file h := by
    rcases List.mem_append.1 h with h | h
    · obtain ⟨location, hlocation⟩ := hfirst.located file h
      exact ⟨location, hsecond.locate hlocation⟩
    · exact hsecond.located file h
  kept location octets h hother := by
    refine hsecond.kept location octets (hfirst.kept location octets h ?_) ?_
    · intro file hfile hlocation
      exact hother file (List.mem_append_left _ hfile) (hsecond.locate hlocation)
    · intro file hfile
      exact hother file (List.mem_append_right _ hfile)
  last front file later hsplit hother := by
    rcases List.append_eq_append_iff.1 hsplit with ⟨between, rfl, hrest⟩ | ⟨between, hfront, hrest⟩
    · -- The file is one of the second part.
      exact hsecond.last between file later hrest hother
    · cases between with
      | nil => exact hsecond.last [] file later hrest.symm hother
      | cons found between =>
          -- The second part moves no path of the first one, and writes elsewhere.
          obtain ⟨rfl, rfl⟩ := List.cons.inj hrest
          have hsame (written : Path × String) (hwritten : written ∈ first) :
              after.locate written.1 = middle.locate written.1 := by
            obtain ⟨location, hlocation⟩ := hfirst.located written hwritten
            rw [hlocation, hsecond.locate hlocation]
          have hfile : file ∈ first := by
            rw [hfront]
            exact List.mem_append_right _ List.mem_cons_self
          refine hsecond.readOctets (hfirst.last front file between hfront ?_) fun other hmem =>
            hother other (List.mem_append_right _ hmem)
          intro other hmem
          have hwritten : other ∈ first := by
            rw [hfront]
            exact List.mem_append_right _ (List.mem_cons_of_mem _ hmem)
          rw [← hsame other hwritten, ← hsame file hfile]
          exact hother other (List.mem_append_left _ hmem)

/-- Each of the files written holds its text exactly when files at one location have one text. -/
theorem held_iff (h : Wrote before after written) :
    (∀ file ∈ written, after.readOctets file.1 = .ok file.2.toUTF8) ↔
      written.Pairwise fun file later =>
        after.locate file.1 = after.locate later.1 → file.2 = later.2 := by
  constructor
  · intro hheld
    refine List.pairwise_of_forall_mem_list fun file hfile later hlater hsame => ?_
    have hread := readOctets_congr hsame
    rw [hheld file hfile, hheld later hlater] at hread
    exact String.toByteArray_inj.1 (Except.ok.inj hread)
  · intro hsame
    have hlast {rest : List (Path × String)} (hrest : rest <:+ written) :
        ∀ file ∈ rest, after.readOctets file.1 = .ok file.2.toUTF8 := by
      -- What the later files hold is known when a file is looked at, so the induction is on them.
      induction rest with
      | nil => exact fun file hfile => absurd hfile List.not_mem_nil
      | cons file later ih =>
          have hlater := ih ((List.suffix_cons file later).trans hrest)
          refine List.forall_mem_cons.2 ⟨?_, hlater⟩
          by_cases hother : ∃ other ∈ later, after.locate other.1 = after.locate file.1
          · obtain ⟨other, hmem, hlocate⟩ := hother
            have htext := (List.pairwise_cons.1 (hsame.sublist hrest.sublist)).1 other hmem
              hlocate.symm
            rw [htext, ← readOctets_congr hlocate]
            exact hlater other hmem
          · obtain ⟨first, hsplit⟩ := hrest
            refine h.last first file later hsplit.symm fun other hmem hlocate => ?_
            exact hother ⟨other, hmem, hlocate⟩
    exact hlast List.suffix_rfl

/-- Where the locations of the files written differ, each of them holds its text. -/
theorem held (h : Wrote before after written)
    (hdistinct : (written.map fun file => after.locate file.1).Nodup) :
    ∀ file ∈ written, after.readOctets file.1 = .ok file.2.toUTF8 :=
  h.held_iff.2 ((List.pairwise_map.1 hdistinct).imp fun hne hsame => absurd hsame hne)

/-- A new folder where nothing stands changes nothing else. -/
theorem of_folder (hnone : disk.entry? location = none) :
    Wrote disk (disk.put location .folder) [] where
  here := rfl
  folders other h := by
    by_cases heq : other = location
    · subst heq
      exact find_put_self (by rw [hnone]; simp)
    · rw [find_put_of_ne heq, h]
  located _ h := absurd h List.not_mem_nil
  kept other octets h _ := by
    have hne : other ≠ location := by
      rintro rfl
      cases hnone.symm.trans h
    rw [find_put_of_ne hne, h]
  last _ _ _ h := absurd h.symm (List.append_ne_nil_of_right_ne_nil _ (List.cons_ne_nil _ _))

/-- A file written at a path holds its text, and other files stay as they are. -/
theorem of_file {text : String} (hpath : disk.locate path = .ok location)
    (hentry : disk.entry? location ≠ some .folder) :
    Wrote disk (disk.put location (.file text.toUTF8)) [(path, text)] := by
  have hfolders : ∀ other, disk.entry? other = some .folder →
      Disk.entry? (disk.put location (.file text.toUTF8)) other = some .folder := by
    intro other hother
    rw [find_put_of_ne, hother]
    rintro rfl
    exact hentry hother
  have hlocate : (disk.put location (.file text.toUTF8)).locate path = .ok location :=
    locate_of_folders (here_put disk location _) hfolders hpath
  refine ⟨rfl, hfolders, ?_, ?_, ?_⟩
  · intro file hfile
    rw [List.mem_singleton.1 hfile]
    exact ⟨location, hlocate⟩
  · intro other octets hother hwritten
    rw [find_put_of_ne, hother]
    rintro rfl
    exact hwritten _ (List.mem_singleton_self _) hlocate
  · intro first file later hsplit _
    have hfile : file ∈ [(path, text)] := hsplit ▸ List.mem_append_right _ List.mem_cons_self
    rw [List.mem_singleton.1 hfile]
    exact readOctets_eq_ok_iff.2 ⟨location, hlocate, find_put_self hentry⟩

end Wrote

end Disk

end DesignTokens
