import DesignTokens.Proofs.Files.Along
import DesignTokens.Proofs.Files.Disk

/-!
# Requests on a disk

Reading leaves a disk as it is (`Quiet`), and a file that holds the text of an object is read as
that object: `readObject_of_text`. Making folders writes no file, whether it succeeds or not
(`Keeps`), and a file that is written below folders holds its text: `wrote_of_writeBelow`.
-/

namespace DesignTokens

/-! ## Texts -/

/-- The octets of a text decode to it. -/
theorem decodeText_toUTF8 (text : String) : decodeText text.toUTF8 = .ok text := by
  have hdecode : String.fromUTF8? text.toUTF8 = some text := dif_pos text.isValidUTF8
  rw [decodeText, hdecode]

/-- A text without carriage returns has its line endings already. -/
theorem unifyLines_of_not_mem {text : String} (h : '\r' ∉ text.toList) :
    unifyLines text = text := by
  have hfold (cs : List Char) (hcs : '\r' ∉ cs) : (cs.foldr unifyStep ([], false)).1 = cs := by
    induction cs with
    | nil => rfl
    | cons c rest ih =>
        rw [List.mem_cons, not_or] at hcs
        rw [List.foldr_cons, unifyStep, if_neg (Ne.symm hcs.1)]
        exact congrArg (c :: ·) (ih hcs.2)
  rw [unifyLines, hfold text.toList h, String.ofList_toList]

/-- No carriage return is left when line endings are line feeds. -/
theorem carriageReturn_not_mem_unifyLines (text : String) : '\r' ∉ (unifyLines text).toList := by
  have hfold (cs : List Char) : '\r' ∉ (cs.foldr unifyStep ([], false)).1 := by
    induction cs with
    | nil => exact List.not_mem_nil
    | cons c rest ih =>
        rw [List.foldr_cons, unifyStep]
        split
        · split
          · exact ih
          · exact fun hmem => ih ((List.mem_cons.1 hmem).resolve_left (by decide))
        · rename_i hne
          exact fun hmem => ih ((List.mem_cons.1 hmem).resolve_left (Ne.symm hne))
  rw [unifyLines, String.toList_ofList]
  exact hfold text.toList

namespace Disk

variable {α β : Type} {disk : Disk} {path : Path}

/-- A computation leaves every disk as it is. -/
def Quiet (x : StateM Disk α) : Prop :=
  ∀ disk, (x disk).2 = disk

/-- A computation writes no file. -/
def Keeps (x : StateM Disk α) : Prop :=
  ∀ disk, Wrote disk (x disk).2 []

/-- To be the same disk is a preorder. -/
instance : IsPreorder Disk fun before after => after = before where
  refl _ := rfl
  trans _ _ _ hfirst hsecond := hsecond.trans hfirst

/-- To have no file written is a preorder. -/
instance : IsPreorder Disk fun before after => Wrote before after [] where
  refl := Wrote.refl
  trans _ _ _ hfirst hsecond := hfirst.append hsecond

/-- A quiet computation writes no file. -/
theorem Quiet.keeps {x : StateM Disk α} (hx : Quiet x) : Keeps x := by
  intro disk
  rw [hx disk]
  exact Wrote.refl disk

/-! ## Single requests -/

theorem quiet_read (path : Path) : Quiet (files.read path) := fun _ => rfl

theorem quiet_isFolder (path : Path) : Quiet (files.isFolder path) := fun _ => rfl

/-- A request that changes the disk does so, or is refused and changes nothing. -/
theorem change_cases (request : Disk → Except FileRefusal Disk) (path : Path) (disk : Disk) :
    (∃ changed, request disk = .ok changed ∧ change request path disk = (.ok (), changed)) ∨
      ∃ fault, change request path disk = (.error fault, disk) := by
  unfold change answer
  split
  · rename_i changed hanswer
    refine Or.inl ⟨changed, ?_, rfl⟩
    split at hanswer
    · cases hanswer
    · cases hrequest : request disk with
      | error refusal => rw [hrequest] at hanswer; cases hanswer
      | ok other =>
          rw [hrequest] at hanswer
          cases hanswer
          rfl
  · exact Or.inr ⟨_, rfl⟩

/-- A new folder stands where nothing stood. -/
theorem wrote_of_addFolder {changed : Disk} (h : disk.addFolder path = .ok changed) :
    Wrote disk changed [] := by
  obtain ⟨location, -, hentry, rfl⟩ := addFolder_eq_ok_iff.1 h
  exact Wrote.of_folder hentry

/-- A text that is written to a path is the file there. -/
theorem wrote_of_writeText {changed : Disk} {text : String}
    (h : disk.writeText path text = .ok changed) : Wrote disk changed [(path, text)] := by
  unfold writeText at h
  split at h
  · cases h
  · obtain ⟨location, hlocate, hentry, rfl⟩ := writeOctets_eq_ok_iff.1 h
    exact Wrote.of_file hlocate hentry

/-- Making a folder writes no file. -/
theorem keeps_makeFolder (path : Path) : Keeps (files.makeFolder path) := by
  intro disk
  show Wrote disk (change (·.addFolder path) path disk).2 []
  obtain ⟨changed, hadd, hchange⟩ | ⟨fault, hchange⟩ := change_cases (·.addFolder path) path disk
  · rw [hchange]
    exact wrote_of_addFolder hadd
  · rw [hchange]
    exact Wrote.refl disk

/-- A successful write makes the text the content of the file. -/
theorem wrote_of_write {text : String} (h : (files.write path text disk).1 = .ok ()) :
    Wrote disk (files.write path text disk).2 [(path, text)] := by
  change (change (·.writeText path text) path disk).1 = .ok () at h
  show Wrote disk (change (·.writeText path text) path disk).2 [(path, text)]
  obtain ⟨changed, hwrite, hchange⟩ | ⟨fault, hchange⟩ :=
    change_cases (·.writeText path text) path disk
  · rw [hchange]
    exact wrote_of_writeText hwrite
  · rw [hchange] at h
    cases h

/-! ## Reading documents -/

/-- Reading a document leaves the disk as it is. -/
theorem quiet_readObject (path : Path) : Quiet (files.readObject path) :=
  Files.along_readObject (R := fun before after => after = before) quiet_read path

/-- A request is answered when its path can be written down and the request is accepted. -/
theorem answer_eq_ok_iff {result : Except FileRefusal α} {a : α} :
    answer path result = .ok a ↔ path.hasNull = false ∧ result = .ok a := by
  unfold answer
  cases path.hasNull with
  | true => simp
  | false => cases result <;> simp [Except.mapError]

/-- A text is read from a path exactly when it decodes the octets there. -/
theorem readText_eq_ok_iff {text : String} :
    (files.readText path disk).1 = .ok text ↔
      ∃ octets decoded, answer path (disk.readOctets path) = .ok octets ∧
        decodeText octets = .ok decoded ∧ unifyLines decoded = text := by
  have hread : files.read path disk = (answer path (disk.readOctets path), disk) := rfl
  rw [Files.readText, bind_apply, hread]
  cases answer path (disk.readOctets path) with
  | error fault => exact ⟨fun h => (by cases h), fun ⟨_, _, h, _⟩ => (by cases h)⟩
  | ok octets =>
      have hiff : (∃ other decoded, (.ok octets : Except FileFault ByteArray) = .ok other ∧
          decodeText other = .ok decoded ∧ unifyLines decoded = text) ↔
            ∃ decoded, decodeText octets = .ok decoded ∧ unifyLines decoded = text := by simp
      rw [hiff]
      dsimp only
      cases decodeText octets with
      | error fault => exact ⟨fun h => (by cases h), fun ⟨_, h, _⟩ => (by cases h)⟩
      | ok decoded =>
          refine ⟨fun h => ⟨decoded, rfl, Except.ok.inj h⟩, fun ⟨_, h, htext⟩ => ?_⟩
          cases h
          exact congrArg Except.ok htext

/-- A path from which a text is read leads somewhere. -/
theorem located_of_readText {text : String} (h : (files.readText path disk).1 = .ok text) :
    path.hasNull = false ∧ ∃ location, disk.locate path = .ok location := by
  obtain ⟨octets, -, hanswer, -⟩ := readText_eq_ok_iff.1 h
  obtain ⟨hnull, hread⟩ := answer_eq_ok_iff.1 hanswer
  obtain ⟨location, hlocate, -⟩ := readOctets_eq_ok_iff.1 hread
  exact ⟨hnull, location, hlocate⟩

/-- No text that is read has a carriage return. -/
theorem carriageReturn_not_mem_of_readText {text : String}
    (h : (files.readText path disk).1 = .ok text) : '\r' ∉ text.toList := by
  obtain ⟨-, decoded, -, -, rfl⟩ := readText_eq_ok_iff.1 h
  exact carriageReturn_not_mem_unifyLines decoded

/-- Reading a text leaves the disk as it is. -/
theorem quiet_readText (path : Path) : Quiet (files.readText path) :=
  Files.along_readText (R := fun before after => after = before) quiet_read path

/-- A file that holds a text with line feeds as line endings is read as that text. -/
theorem readText_of_text {text : String}
    (hanswer : answer path (disk.readOctets path) = .ok text.toUTF8)
    (hlines : '\r' ∉ text.toList) : files.readText path disk = (.ok text, disk) :=
  Prod.ext (readText_eq_ok_iff.2
    ⟨_, text, hanswer, decodeText_toUTF8 text, unifyLines_of_not_mem hlines⟩)
    (quiet_readText path disk)

/-- An object is read from a path exactly when the text there denotes it. -/
theorem readObject_eq_ok_iff {fields : Fields Json} :
    (files.readObject path disk).1 = .ok fields ↔
      ∃ text, (files.readText path disk).1 = .ok text ∧ Json.read text = .ok (.obj fields) := by
  rw [Files.readObject, bind_apply]
  cases (files.readText path disk).1 with
  | error fault => exact ⟨fun h => (by cases h), fun ⟨_, h, _⟩ => (by cases h)⟩
  | ok text =>
      have hiff : (∃ other, (.ok text : Except DocumentFault String) = .ok other ∧
          Json.read other = .ok (.obj fields)) ↔ Json.read text = .ok (.obj fields) := by simp
      rw [hiff]
      dsimp only
      cases Json.read text with
      | error fault => exact ⟨fun h => (by cases h), fun h => (by cases h)⟩
      | ok x =>
          cases x with
          | obj others => exact ⟨fun h => (by cases h; rfl), fun h => (by cases h; rfl)⟩
          | _ => exact ⟨fun h => (by cases h), fun h => (by cases h)⟩

/-- A file that holds the text of an object is read as that object. -/
theorem readObject_of_text {text : String} {fields : Fields Json}
    (hanswer : answer path (disk.readOctets path) = .ok text.toUTF8) (hlines : '\r' ∉ text.toList)
    (hread : Json.readAll text.toList = .ok (.obj fields)) :
    files.readObject path disk = (.ok fields, disk) := by
  have hjson : Json.read text = .ok (.obj fields) := by
    rw [Json.read, hread]
  refine Prod.ext (readObject_eq_ok_iff.2 ⟨text, ?_, hjson⟩) (quiet_readObject path disk)
  rw [readText_of_text hanswer hlines]

/-! ## Writing again -/

/-- A file may be written at the path: the path leads to a place that holds no folder, and it is not
locked. -/
structure Writable (disk : Disk) (path : Path) : Prop where
  hasNull : path.hasNull = false
  unlocked : disk.locked.contains path.text = false
  located : ∃ location, disk.locate path = .ok location ∧ disk.entry? location ≠ some .folder

/-- A text is written to a path exactly when a file may be written there. -/
theorem write_eq_ok_iff {text : String} {changed : Disk} :
    files.write path text disk = (.ok (), changed) ↔
      path.hasNull = false ∧ disk.locked.contains path.text = false ∧
        ∃ location, disk.locate path = .ok location ∧ disk.entry? location ≠ some .folder ∧
          disk.put location (.file text.toUTF8) = changed := by
  have hanswer : files.write path text disk = (.ok (), changed) ↔
      answer path (disk.writeText path text) = .ok changed := by
    show change (·.writeText path text) path disk = _ ↔ _
    unfold change
    cases answer path (disk.writeText path text) with
    | error fault => exact ⟨fun h => (by cases h), fun h => (by cases h)⟩
    | ok other => exact ⟨fun h => (by cases h; rfl), fun h => (by cases h; rfl)⟩
  rw [hanswer, answer_eq_ok_iff, writeText]
  refine and_congr_right fun _ => ?_
  cases disk.locked.contains path.text with
  | true => simp
  | false => simp [writeOctets_eq_ok_iff]

/-- Where a text was written, a file may be written. -/
theorem writable_of_write {text : String} {changed : Disk}
    (h : files.write path text disk = (.ok (), changed)) : Writable disk path := by
  obtain ⟨hnull, hlocked, location, hlocate, hentry, -⟩ := write_eq_ok_iff.1 h
  exact ⟨hnull, hlocked, location, hlocate, hentry⟩

/-- Where a file may be written, every text is. -/
theorem Writable.exists_write (h : Writable disk path) (text : String) :
    ∃ changed, files.write path text disk = (.ok (), changed) := by
  obtain ⟨hnull, hlocked, location, hlocate, hentry⟩ := h
  exact ⟨_, write_eq_ok_iff.2 ⟨hnull, hlocked, location, hlocate, hentry, rfl⟩⟩

/-- Writing leaves it open to write, there and elsewhere. -/
theorem Writable.of_write {other : Path} {text : String} {changed : Disk} (h : Writable disk path)
    (hwrite : files.write other text disk = (.ok (), changed)) : Writable changed path := by
  obtain ⟨hnull, hlocked, location, hlocate, hentry⟩ := h
  have hwrote := wrote_of_write (congrArg Prod.fst hwrite)
  rw [hwrite] at hwrote
  obtain ⟨-, -, there, -, hthere, rfl⟩ := write_eq_ok_iff.1 hwrite
  refine ⟨hnull, hlocked, location, hwrote.locate hlocate, ?_⟩
  by_cases hsame : location = there
  · rw [hsame, find_put_self hthere]
    simp
  · rwa [find_put_of_ne hsame]

/-! ## Writing below folders -/

/-- Making sure of a folder and those above it writes no file. -/
theorem keeps_ensureParts (anchor : String) (parts : List String) :
    Keeps (files.ensureParts anchor parts) :=
  Files.along_ensureParts (R := fun before after => Wrote before after []) keeps_makeFolder
    (fun path => (quiet_isFolder path).keeps) anchor parts

/-- A file that is written with the folders above it holds its text. -/
theorem wrote_of_writeBelow {text : String} (h : (files.writeBelow path text disk).1 = .ok ()) :
    Wrote disk (files.writeBelow path text disk).2 [(path, text)] := by
  have hfolders : Wrote disk (files.ensureFolders path.parent disk).2 [] :=
    keeps_ensureParts _ _ disk
  rw [Files.writeBelow, bind_apply] at h ⊢
  cases hresult : (files.ensureFolders path.parent disk).1 with
  | error fault =>
      rw [hresult] at h
      cases h
  | ok made =>
      rw [hresult] at h
      exact hfolders.append (wrote_of_write h)

end Disk

end DesignTokens
