import DesignTokens.Proofs.Files.Access

/-!
# Files as seen from outside

A `FileView` is what a file system shows: where paths lead, and the octets that stand there.
`Files.Shows` says what the requests do to it. Only a write changes a file, whole and at once, and a
refused write changes none. Nothing is said about when a request is refused, so whatever follows
from it holds however requests fail. A disk is such a file system: `Disk.shows_view`. Files that are
written alike on two disks hold the same contents: `Disk.Wrote.readOctets_same`.
-/

namespace DesignTokens

/-- The location that parts lead to from another one when every step leads into a folder. -/
def Location.through (start : Location) (parts : List String) : Location :=
  parts.foldl (fun location part => if part = ".." then location.dropLast else location ++ [part])
    start

/-- What a file system shows of its files. -/
structure FileView where
  /-- Where a path leads. -/
  place : Path → Location
  /-- The octets of the file at a location. -/
  octets? : Location → Option ByteArray

namespace FileView

/-- The view with a text as the whole content of the file at a path. -/
def write (view : FileView) (path : Path) (text : String) : FileView :=
  { view with
    octets? := fun location =>
      if location = view.place path then some text.toUTF8 else view.octets? location }

/-- The view after texts were written to paths in order. -/
def writeAll (view : FileView) (written : List (Path × String)) : FileView :=
  written.foldl (fun view file => view.write file.1 file.2) view

@[simp] theorem writeAll_nil (view : FileView) : view.writeAll [] = view := rfl

@[simp] theorem writeAll_cons (view : FileView) (file : Path × String)
    (rest : List (Path × String)) :
    view.writeAll (file :: rest) = (view.write file.1 file.2).writeAll rest := rfl

theorem octets?_write (view : FileView) (path : Path) (text : String) (location : Location) :
    (view.write path text).octets? location =
      if location = view.place path then some text.toUTF8 else view.octets? location := rfl

/-- Writing what stands there already changes nothing. -/
theorem write_eq_self {view : FileView} {path : Path} {text : String}
    (h : view.octets? (view.place path) = some text.toUTF8) : view.write path text = view := by
  have hoctets : (view.write path text).octets? = view.octets? := by
    funext location
    rw [octets?_write]
    by_cases heq : location = view.place path
    · rw [if_pos heq, heq, h]
    · rw [if_neg heq]
  exact congrArg (FileView.mk view.place) hoctets

theorem writeAll_append (view : FileView) (first second : List (Path × String)) :
    view.writeAll (first ++ second) = (view.writeAll first).writeAll second :=
  List.foldl_append

end FileView

/-- A file system shows its files in a view of its states. Any of its requests may be refused. -/
structure Files.Shows {σ : Type} (files : Files (StateM σ)) (view : σ → FileView) : Prop where
  read : ∀ path s, view (files.read path s).2 = view s
  isFolder : ∀ path s, view (files.isFolder path s).2 = view s
  makeFolder : ∀ path s, view (files.makeFolder path s).2 = view s
  write : ∀ path text s, (files.write path text s).1 = .ok () →
    view (files.write path text s).2 = (view s).write path text
  refused : ∀ path text s fault, (files.write path text s).1 = .error fault →
    view (files.write path text s).2 = view s

/-- To show the same files is a preorder. -/
instance {σ : Type} (view : σ → FileView) : IsPreorder σ fun s t => view t = view s where
  refl _ := rfl
  trans _ _ _ hfirst hsecond := hsecond.trans hfirst

namespace Files.Shows

variable {σ : Type} {files : Files (StateM σ)} {view : σ → FileView}

/-- Writing a file with the folders above it makes the text its whole content, or is refused and
changes no file. -/
theorem writeBelow (h : files.Shows view) (path : Path) (text : String) (s : σ) :
    ((files.writeBelow path text s).1 = .ok () ∧
        view (files.writeBelow path text s).2 = (view s).write path text) ∨
      ∃ fault, (files.writeBelow path text s).1 = .error fault ∧
        view (files.writeBelow path text s).2 = view s := by
  have hfolders : view (files.ensureFolders path.parent s).2 = view s :=
    Files.along_ensureParts (R := fun s t => view t = view s) h.makeFolder h.isFolder _ _ s
  rw [Files.writeBelow, bind_apply]
  cases (files.ensureFolders path.parent s).1 with
  | error fault => exact Or.inr ⟨fault, rfl, hfolders⟩
  | ok made =>
      dsimp only
      rw [← hfolders]
      cases hwrite : (files.write path text (files.ensureFolders path.parent s).2).1 with
      | error fault => exact Or.inr ⟨fault, rfl, h.refused _ _ _ fault hwrite⟩
      | ok written => exact Or.inl ⟨rfl, h.write _ _ _ hwrite⟩

end Files.Shows

/-! ## Refusals from elsewhere -/

/-- A request that is refused when the first of the refusals to come says so. -/
def refusing {σ α : Type} (x : StateM σ (Except FileFault α)) :
    StateM (σ × List (Option FileFault)) (Except FileFault α) := fun (s, refusals) =>
  match refusals with
  | some fault :: later => (.error fault, (s, later))
  | none :: later => ((x s).1, ((x s).2, later))
  | [] => ((x s).1, ((x s).2, []))

/-- A request leads from a state to what it would lead to, or is refused and leads nowhere. -/
theorem refusing_cases {σ α : Type} (x : StateM σ (Except FileFault α))
    (s : σ × List (Option FileFault)) :
    ((refusing x s).1 = (x s.1).1 ∧ (refusing x s).2.1 = (x s.1).2) ∨
      ∃ fault, (refusing x s).1 = .error fault ∧ (refusing x s).2.1 = s.1 := by
  obtain ⟨s, refusals⟩ := s
  match refusals with
  | some fault :: later => exact Or.inr ⟨fault, rfl, rfl⟩
  | none :: later => exact Or.inl ⟨rfl, rfl⟩
  | [] => exact Or.inl ⟨rfl, rfl⟩

/-- The file system that also refuses requests as a list says, one request after the other. -/
def Files.refusing {σ : Type} (files : Files (StateM σ)) :
    Files (StateM (σ × List (Option FileFault))) where
  read path := DesignTokens.refusing (files.read path)
  isFolder path := fun (s, refusals) =>
    ((files.isFolder path s).1, ((files.isFolder path s).2, refusals))
  makeFolder path := DesignTokens.refusing (files.makeFolder path)
  write path text := DesignTokens.refusing (files.write path text)

/-- However requests are refused, a file system goes on to show its files. -/
theorem Files.Shows.refusing {σ : Type} {files : Files (StateM σ)} {view : σ → FileView}
    (h : files.Shows view) : files.refusing.Shows fun s => view s.1 where
  read path s := by
    obtain ⟨-, hstate⟩ | ⟨fault, -, hstate⟩ := refusing_cases (files.read path) s
    · exact (congrArg view hstate).trans (h.read path s.1)
    · exact congrArg view hstate
  isFolder path s := h.isFolder path s.1
  makeFolder path s := by
    obtain ⟨-, hstate⟩ | ⟨fault, -, hstate⟩ := refusing_cases (files.makeFolder path) s
    · exact (congrArg view hstate).trans (h.makeFolder path s.1)
    · exact congrArg view hstate
  write path text s hok := by
    obtain ⟨hanswer, hstate⟩ | ⟨fault, hanswer, -⟩ := refusing_cases (files.write path text) s
    · exact (congrArg view hstate).trans (h.write path text s.1 (hanswer.symm.trans hok))
    · cases hanswer.symm.trans hok
  refused path text s fault hrefused := by
    obtain ⟨hanswer, hstate⟩ | ⟨other, -, hstate⟩ := refusing_cases (files.write path text) s
    · exact (congrArg view hstate).trans
        (h.refused path text s.1 fault (hanswer.symm.trans hrefused))
    · exact congrArg view hstate

/-! ## Disks -/

/-- The octets of an entry, when it is a file. -/
def DiskEntry.octets? : DiskEntry → Option ByteArray
  | .file octets => some octets
  | .folder => none

namespace Disk

/-- What a disk shows of its files. -/
def view (disk : Disk) : FileView where
  place path := Location.through (if path.anchor = "" then disk.here else []) path.parts
  octets? location := (disk.entry? location).bind DiskEntry.octets?

variable {disk : Disk} {location other : Location} {path : Path} {text : String}
  {written written' first later : List (Path × String)} {file : Path × String}

theorem octets?_view (disk : Disk) (location : Location) :
    disk.view.octets? location = (disk.entry? location).bind DiskEntry.octets? := rfl

/-- Where parts lead, they lead as their names say. -/
theorem eq_through_of_follow {parts : List String} (h : disk.follow location parts = .ok other) :
    other = location.through parts := by
  induction parts generalizing location with
  | nil => exact (Except.ok.inj h).symm
  | cons part rest ih =>
      rw [follow] at h
      split at h
      · cases h
      · cases h
      · split at h
        · cases h
        · exact ih h

/-- The location of a path is where the view has it lead. -/
theorem eq_place_of_locate (h : disk.locate path = .ok location) :
    location = disk.view.place path := by
  unfold locate at h
  split at h
  · cases h
  · exact eq_through_of_follow h

/-- The octets that are read from a path are those that the view shows there. -/
theorem octets?_view_of_readOctets {octets : ByteArray} (h : disk.readOctets path = .ok octets) :
    disk.view.octets? (disk.view.place path) = some octets := by
  obtain ⟨location, hlocate, hentry⟩ := readOctets_eq_ok_iff.1 h
  rw [← eq_place_of_locate hlocate, octets?_view, hentry]
  rfl

/-- A folder where nothing stood is no file. -/
theorem view_put_folder (hnone : disk.entry? location = none) :
    (disk.put location .folder).view = disk.view := by
  have hoctets : (disk.put location .folder).view.octets? = disk.view.octets? := by
    funext other
    rw [octets?_view, octets?_view]
    by_cases heq : other = location
    · subst heq
      rw [find_put_self (by simp [hnone]), hnone]
      rfl
    · rw [find_put_of_ne heq]
  exact congrArg (FileView.mk disk.view.place) hoctets

/-- A file that is put at a location stands there, and other files stay as they are. -/
theorem view_put_file (hentry : disk.entry? location ≠ some .folder)
    (hplace : location = disk.view.place path) :
    (disk.put location (.file text.toUTF8)).view = disk.view.write path text := by
  have hoctets : (disk.put location (.file text.toUTF8)).view.octets? =
      (disk.view.write path text).octets? := by
    funext other
    rw [octets?_view, FileView.octets?_write, ← hplace, octets?_view]
    by_cases heq : other = location
    · subst heq
      rw [find_put_self hentry, if_pos rfl]
      rfl
    · rw [find_put_of_ne heq, if_neg heq]
  exact congrArg (FileView.mk disk.view.place) hoctets

/-- A disk shows its files. -/
theorem shows_view : Disk.files.Shows view where
  read _ _ := rfl
  isFolder _ _ := rfl
  makeFolder path disk := by
    show (change (·.addFolder path) path disk).2.view = disk.view
    obtain ⟨changed, hadd, hchange⟩ | ⟨fault, hchange⟩ :=
      change_cases (·.addFolder path) path disk
    · obtain ⟨location, -, hnone, rfl⟩ := addFolder_eq_ok_iff.1 hadd
      rw [hchange]
      exact view_put_folder hnone
    · rw [hchange]
  write path text disk hok := by
    change (change (·.writeText path text) path disk).1 = .ok () at hok
    show (change (·.writeText path text) path disk).2.view = disk.view.write path text
    obtain ⟨changed, hwrite, hchange⟩ | ⟨fault, hchange⟩ :=
      change_cases (·.writeText path text) path disk
    · rw [hchange]
      dsimp only at hwrite ⊢
      unfold writeText at hwrite
      split at hwrite
      · cases hwrite
      · obtain ⟨location, hlocate, hentry, rfl⟩ := writeOctets_eq_ok_iff.1 hwrite
        exact view_put_file hentry (eq_place_of_locate hlocate)
    · rw [hchange] at hok
      cases hok
  refused path text disk fault hrefused := by
    change (change (·.writeText path text) path disk).1 = .error fault at hrefused
    show (change (·.writeText path text) path disk).2.view = disk.view
    obtain ⟨changed, -, hchange⟩ | ⟨other, hchange⟩ :=
      change_cases (·.writeText path text) path disk
    · rw [hchange] at hrefused
      cases hrefused
    · rw [hchange]

/-! ## The same files on two disks -/

/-- Lists that are related element by element split at the last element with a property. -/
theorem exists_last_of_forall₂ {α β : Type} {R : α → β → Prop} {P : α → Prop} {l : List α}
    {m : List β} (h : List.Forall₂ R l m) (hP : ∃ a ∈ l, P a) :
    ∃ first a later first' b later', l = first ++ a :: later ∧ m = first' ++ b :: later' ∧ R a b ∧
      List.Forall₂ R later later' ∧ P a ∧ ∀ c ∈ later, ¬ P c := by
  induction h with
  | nil =>
      obtain ⟨a, ha, -⟩ := hP
      cases ha
  | @cons a b later later' hab hlater ih =>
      by_cases hrest : ∃ c ∈ later, P c
      · obtain ⟨first, c, rest, first', d, rest', rfl, rfl, hlast⟩ := ih hrest
        exact ⟨a :: first, c, rest, b :: first', d, rest', rfl, rfl, hlast⟩
      · obtain ⟨c, hc, hPc⟩ := hP
        rcases List.mem_cons.1 hc with rfl | hc
        · exact ⟨[], c, later, [], b, later', rfl, rfl, hab, hlater, hPc,
            fun c hc hPc => hrest ⟨c, hc, hPc⟩⟩
        · exact absurd ⟨c, hc, hPc⟩ hrest

/-- The files have one path, and one text when it has the location of another path. -/
def SameTextAt (disk : Disk) (path : Path) (file other : Path × String) : Prop :=
  file.1 = other.1 ∧ (disk.locate file.1 = disk.locate path → file.2 = other.2)

/-- Files that are the same up to texts have the same paths. -/
theorem paths_of_sameTextAt (h : List.Forall₂ (disk.SameTextAt path) written written') :
    written.map Prod.fst = written'.map Prod.fst := by
  rw [← List.forall₂_eq_eq_eq, List.forall₂_map_left_iff, List.forall₂_map_right_iff]
  exact h.imp fun _ _ hsame => hsame.1

namespace Wrote

variable {before after before' after' : Disk}

/-- The path of a file written has the location where it led before. -/
theorem locate_eq (h : Wrote before after written) (hpath : path ∈ written.map Prod.fst) :
    after.locate path = .ok (before.view.place path) := by
  obtain ⟨file, hfile, rfl⟩ := List.mem_map.1 hpath
  obtain ⟨location, hlocation⟩ := h.located file hfile
  have hplace : after.view.place = before.view.place := by
    rw [view, view, h.here]
  rw [hlocation, eq_place_of_locate hlocation, hplace]

/-- A path holds the text of the last file that is written at its location. -/
theorem readOctets_last (h : Wrote before after (first ++ file :: later))
    (hfile : after.locate file.1 = after.locate path)
    (hlater : ∀ other ∈ later, after.locate other.1 ≠ after.locate path) :
    after.readOctets path = .ok file.2.toUTF8 := by
  rw [← readOctets_congr hfile]
  exact h.last first file later rfl fun other hother => hfile ▸ hlater other hother

/-- Where files of the same paths are written on two disks, a path among them holds the same content
on both when the files at its location have the same texts. -/
theorem readOctets_same (h : Wrote before after written) (h' : Wrote before' after' written')
    (hhere : before.here = before'.here)
    (hfiles : List.Forall₂ (after.SameTextAt path) written written')
    (hpath : path ∈ written.map Prod.fst) :
    ∃ octets, after.readOctets path = .ok octets ∧ after'.readOctets path = .ok octets := by
  have hlocate {name : Path} (hname : name ∈ written.map Prod.fst) :
      after'.locate name = after.locate name := by
    rw [h.locate_eq hname, h'.locate_eq (paths_of_sameTextAt hfiles ▸ hname), view, view, hhere]
  have hthere : ∃ file ∈ written, after.locate file.1 = after.locate path := by
    obtain ⟨file, hfile, rfl⟩ := List.mem_map.1 hpath
    exact ⟨file, hfile, rfl⟩
  obtain ⟨first, file, later, first', other, later', rfl, rfl, ⟨hname, htext⟩, hrest, hat, hlast⟩ :=
    exists_last_of_forall₂ hfiles hthere
  have hwritten {name : Path} (hname : name ∈ (file :: later).map Prod.fst) :
      after'.locate name = after.locate name := by
    refine hlocate ?_
    rw [List.map_append]
    exact List.mem_append_right _ hname
  refine ⟨file.2.toUTF8, h.readOctets_last hat hlast, ?_⟩
  rw [htext hat]
  refine h'.readOctets_last ?_ fun late hlate => ?_
  · rw [← hname, hwritten List.mem_cons_self, hat, hlocate hpath]
  · -- Its path is that of a later file of the first disk.
    have hmem : late.1 ∈ later.map Prod.fst := paths_of_sameTextAt hrest ▸ List.mem_map_of_mem hlate
    rw [hwritten (List.mem_cons_of_mem _ hmem), hlocate hpath]
    obtain ⟨twin, htwin, heq⟩ := List.mem_map.1 hmem
    exact heq ▸ hlast twin htwin

end Wrote

end Disk

end DesignTokens
