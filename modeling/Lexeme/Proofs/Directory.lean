import Lexeme.Directory
import Lexeme.Entries

/-!
# What writing a file leaves alone

A written file is read back as it was written, and no path that leads elsewhere notices that
it was written. A walk that passes the new file or ends above it only has another reason to
fail: before, something was missing, and now something is no directory.
-/

namespace Lexeme.Directory

variable {directory written : Directory} {location : Location} {path other : Path}
variable {contents : Bytes}

theorem entry?_put (directory : Directory) (below : location.components ≠ []) (entry : Entry)
    (place : Location) :
    Directory.entry? (directory.put location entry) place =
      if place = location then some entry else directory.entry? place := by
  have found := List.lookup_cons_filter_ne location place entry directory.entries
  unfold entry? put
  by_cases same : place = location
  · subst same
    simp [below]
  · simp only [ne_eq, decide_not, same, if_false]
    split
    · rfl
    · exact found.trans (if_neg (by simpa using same))

theorem below_of_ne_folder (notFolder : directory.entry? location ≠ some .folder) :
    location.components ≠ [] := by
  intro top
  unfold entry? at notFolder
  simp [top] at notFolder

/-- A walk goes through directories only, and a file makes no directory nor replaces one. -/
theorem walk_put_file (notFolder : directory.entry? location ≠ some .folder) (start : Location)
    (components : List Text) :
    (directory.put location (.file contents)).walk start components =
        directory.walk start components ∨
      directory.walk start components = .error .missing ∧
        (directory.put location (.file contents)).walk start components =
          .error .notDirectory := by
  induction components generalizing start with
  | nil => exact Or.inl rfl
  | cons component rest inductionHypothesis =>
      have found := entry?_put directory (below_of_ne_folder notFolder) (.file contents) start
      by_cases same : start = location
      · rw [if_pos same] at found
        rw [walk, walk, found]
        cases before : directory.entry? start with
        | none => exact Or.inr ⟨rfl, rfl⟩
        | some entry =>
            cases entry with
            | file _ => exact Or.inl rfl
            | folder => exact absurd (same ▸ before) notFolder
      · rw [if_neg same] at found
        rw [walk, walk, found]
        cases directory.entry? start with
        | none => exact Or.inl rfl
        | some entry =>
            cases entry with
            | file _ => exact Or.inl rfl
            | folder =>
                simp only
                split
                · exact inductionHypothesis start.parent
                · split
                  · exact Or.inl rfl
                  · exact inductionHypothesis (start.child component)

theorem locate_put_file (notFolder : directory.entry? location ≠ some .folder)
    (contents : Bytes) (path : Path) :
    (directory.put location (.file contents)).locate path = directory.locate path ∨
      directory.locate path = .error .missing ∧
        (directory.put location (.file contents)).locate path = .error .notDirectory := by
  simp only [locate]
  split
  · exact Or.inl rfl
  · exact walk_put_file notFolder (.start path) path.components

theorem openFile_eq_ok_iff {found : Option Bytes} :
    directory.openFile path = .ok (location, found) ↔
      path.text.contains '\x00' = false ∧ directory.locate path = .ok location ∧
        directory.entry? location = found.map .file := by
  simp only [openFile]
  split
  · next holdsNul =>
      rw [holdsNul]
      simp
  · next plain =>
      rw [Bool.not_eq_true] at plain
      cases directory.locate path with
      | error problem => simp
      | ok place =>
          simp only [plain, Except.ok.injEq, true_and]
          cases at_place : directory.entry? place with
          | none => cases found <;> grind
          | some entry => cases entry <;> cases found <;> grind

theorem read_eq_ok_iff {data : Bytes} :
    directory.read path = .ok data ↔
      ∃ place, directory.openFile path = .ok (place, some data) := by
  simp only [read]
  split
  · next opened => simp [opened]
  · next opened => simp [opened]
  · next opened => simp [opened]

/-- What is read is the contents of one of the files that are there. -/
theorem mem_entries_of_read {data : Bytes} (read : directory.read path = .ok data) :
    ∃ place, (place, Entry.file data) ∈ directory.entries := by
  rcases read_eq_ok_iff.mp read with ⟨place, opened⟩
  have found := (openFile_eq_ok_iff.mp opened).2.2
  unfold entry? at found
  split at found
  · cases found
  · rcases List.lookup_eq_some_iff.mp found with ⟨before, after, split, _⟩
    refine ⟨place, ?_⟩
    rw [split]
    simp

theorem write_eq_ok_iff :
    directory.write path contents = .ok written ↔
      ∃ place found, directory.openFile path = .ok (place, found) ∧
        written = directory.put place (.file contents) := by
  simp only [write]
  split
  · next opened => simp [opened]
  · next opened => simp [opened, eq_comm]

theorem openFile_eq_holdsNul_iff :
    directory.openFile path = .error .holdsNul ↔ path.text.contains '\x00' = true := by
  simp only [openFile]
  split
  · next holdsNul => exact ⟨fun _ => holdsNul, fun _ => rfl⟩
  · next plain =>
      rw [Bool.not_eq_true] at plain
      rw [plain]
      cases directory.locate path with
      | error problem => simp
      | ok place =>
          simp only
          split <;> simp

theorem read_eq_holdsNul_iff :
    directory.read path = .error .holdsNul ↔ path.text.contains '\x00' = true := by
  have failed : directory.openFile path = .error .holdsNul ↔ path.text.contains '\x00' = true :=
    openFile_eq_holdsNul_iff
  rw [← failed, read]
  split
  · next opened => simp [opened]
  · next opened => simp [opened]
  · next opened => simp [opened]

/-- A path leads to a file exactly if the file can be read. -/
theorem isFile_eq_true_iff :
    directory.isFile path = .ok true ↔ ∃ data, directory.read path = .ok data := by
  simp only [isFile, read_eq_ok_iff, openFile]
  split
  · simp
  · cases directory.locate path with
    | error problem => cases problem <;> simp
    | ok place =>
        simp only
        cases directory.entry? place with
        | none => simp
        | some entry => cases entry <;> simp

theorem write_eq_holdsNul_iff :
    directory.write path contents = .error .holdsNul ↔ path.text.contains '\x00' = true := by
  have failed : directory.openFile path = .error .holdsNul ↔ path.text.contains '\x00' = true :=
    openFile_eq_holdsNul_iff
  rw [← failed, write]
  split
  · next opened => simp [opened]
  · next opened => simp [opened]

theorem ne_folder_of_openFile {found : Option Bytes}
    (opened : directory.openFile path = .ok (location, found)) :
    directory.entry? location ≠ some .folder := by
  rw [(openFile_eq_ok_iff.mp opened).2.2]
  cases found <;> simp

theorem read_of_write (wrote : directory.write path contents = .ok written) :
    written.read path = .ok contents := by
  rcases write_eq_ok_iff.mp wrote with ⟨place, found, opened, rfl⟩
  have notFolder := ne_folder_of_openFile opened
  rcases openFile_eq_ok_iff.mp opened with ⟨plain, located, _⟩
  refine read_eq_ok_iff.mpr ⟨place, openFile_eq_ok_iff.mpr ⟨plain, ?_, ?_⟩⟩
  · rcases locate_put_file notFolder contents path with same | ⟨missing, _⟩
    · rw [same, located]
    · rw [located] at missing
      contradiction
  · rw [entry?_put directory (below_of_ne_folder notFolder), if_pos rfl]
    rfl

section

variable (wrote : directory.write path contents = .ok written)
    (apart : directory.locate path ≠ directory.locate other)
include wrote apart

/-- Nothing is different at the end of a path that leads elsewhere. -/
theorem locate_of_write_elsewhere :
    (∃ place, directory.locate other = .ok place ∧ written.locate other = .ok place ∧
        written.entry? place = directory.entry? place) ∨
      ∃ problem reason, directory.locate other = .error problem ∧
        written.locate other = .error reason ∧
        (problem = .nameTooLong ↔ reason = .nameTooLong) := by
  rcases write_eq_ok_iff.mp wrote with ⟨place, found, opened, rfl⟩
  have notFolder := ne_folder_of_openFile opened
  rcases openFile_eq_ok_iff.mp opened with ⟨_, located, _⟩
  rcases locate_put_file notFolder contents other with same | ⟨missing, instead⟩
  · cases otherwise : directory.locate other with
    | error problem => exact Or.inr ⟨problem, problem, rfl, same.trans otherwise, Iff.rfl⟩
    | ok otherPlace =>
        have different : otherPlace ≠ place := by
          rintro rfl
          exact apart (located.trans otherwise.symm)
        refine Or.inl ⟨otherPlace, rfl, same.trans otherwise, ?_⟩
        rw [entry?_put directory (below_of_ne_folder notFolder), if_neg different]
  · exact Or.inr ⟨.missing, .notDirectory, missing, instead, by simp⟩

theorem read_of_write_elsewhere {data : Bytes} :
    written.read other = .ok data ↔ directory.read other = .ok data := by
  simp only [read_eq_ok_iff, openFile_eq_ok_iff]
  rcases locate_of_write_elsewhere wrote apart with
    ⟨place, before, after, unchanged⟩ | ⟨problem, reason, before, after, _⟩
  · simp only [before, after, Except.ok.injEq]
    grind
  · simp [before, after]

theorem isFile_of_write_elsewhere : written.isFile other = directory.isFile other := by
  simp only [isFile]
  split
  · rfl
  · rcases locate_of_write_elsewhere wrote apart with
      ⟨place, before, after, unchanged⟩ | ⟨problem, reason, before, after, sameLength⟩
    · rw [before, after]
      simp only [unchanged]
    · rw [before, after]
      cases problem <;> cases reason <;> simp_all

end

end Lexeme.Directory
