import Dabara.Proofs.DiskWrites
import Dabara.Proofs.EditorRefinement
import Dabara.Proofs.Keystrokes

set_option autoImplicit false

namespace Dabara

namespace Buffer

/-- A file that may be read is opened with the text that its path stands for, or not at all. -/
theorem openFile_eq_ok_iff (disk : Disk) (path : String) (buffer : Buffer) :
    openFile disk path = .ok buffer ↔
      disk.denials.reading path = none ∧
        ∃ text, disk.Holds path text ∧ buffer = ⟨text, some path, false⟩ := by
  unfold openFile Disk.read
  cases disk.denials.reading path with
  | some denial => simp
  | none =>
      simp only [true_and]
      constructor
      · intro opened
        split at opened
        · next missing =>
            cases opened
            exact ⟨[], Or.inr ⟨missing, rfl⟩, rfl⟩
        · cases opened
        · next bytes present =>
            split at opened
            · next text decoded =>
                cases opened
                rw [(decodeText_eq_some_iff bytes text).mp decoded] at present
                exact ⟨text, Or.inl present, rfl⟩
            · cases opened
      · rintro ⟨text, present | ⟨missing, rfl⟩, rfl⟩
        · rw [present]
          dsimp only
          rw [decodeText_encodeText]
        · rw [missing]

end Buffer

namespace Editor

variable {disk written : Disk} {editor next : Editor}

/-- Keys with the control key held down, but for the one that saves, leave disk and buffer alone. -/
theorem control_of_ne (disk : Disk) (editor : Editor) {key : Key} (other : key ≠ .char 's') :
    (editor.control disk key).1 = disk ∧ (editor.control disk key).2.buffer = editor.buffer := by
  unfold control
  split
  · exact ⟨rfl, rfl⟩
  · exact ⟨rfl, rfl⟩
  · exact absurd rfl other
  · exact ⟨rfl, rfl⟩

/-- An event that saves does nothing else, but that a message before it is gone. -/
theorem handle?_of_saves {event : Event} (saves : event.saves = true) (disk : Disk)
    (editor : Editor) :
    editor.handle? disk event = some ({ editor with message := none }.save disk) := by
  cases event with
  | key event =>
      simp only [Event.saves, Bool.and_eq_true, decide_eq_true_eq] at saves
      obtain ⟨⟨down, control⟩, key⟩ := saves
      rw [handle?, if_neg down]
      dsimp only
      rw [if_pos control, key]
      rfl
  | _ => cases saves

/-- All other events leave the disk alone and do to the buffer what a key does. -/
theorem handle?_of_not_saves {event : Event} (other : event.saves = false)
    (success : editor.handle? disk event = some (written, next)) :
    written = disk ∧ editor.buffer.Edits next.buffer := by
  have idle : editor.buffer.Edits editor.buffer := ⟨rfl, Or.inl rfl⟩
  cases event with
  | key event =>
      rw [handle?] at success
      split at success
      · cases success
        exact ⟨rfl, idle⟩
      next down =>
      dsimp only at success
      split at success
      · next control =>
          have key : event.key ≠ .char 's' := by
            intro same
            simp [Event.saves, down, control, same] at other
          obtain ⟨same, kept⟩ := control_of_ne disk { editor with message := none } key
          rw [Option.some.injEq, Prod.ext_iff] at success
          obtain ⟨rfl, rfl⟩ := success
          rw [kept]
          exact ⟨same, idle⟩
      · obtain ⟨found, pressed, shape⟩ := Option.map_eq_some_iff.mp success
        cases shape
        exact ⟨rfl, (press?_pressed pressed).edits⟩
  | _ =>
      cases success
      exact ⟨rfl, idle⟩

theorem save_of_clean (disk : Disk) (clean : editor.buffer.dirty = false) :
    editor.save disk = (disk, editor.setMessage "Babu canji") := by
  rw [save, if_neg (by simp [clean])]

/-- A marked text whose file can be made is written, and is marked no more. -/
theorem save_of_creates {path : String} {location : Location}
    (dirty : editor.buffer.dirty = true) (named : editor.buffer.path = some path)
    (creates : disk.Creates path location) :
    editor.save disk =
      (disk.put location (.file (encodeText editor.buffer.text)),
        { editor with
          buffer := { editor.buffer with dirty := false }
          message := some ("An ajiye " ++ path) }) := by
  have saved : editor.buffer.save disk =
      .ok (disk.put location (.file (encodeText editor.buffer.text)),
        { editor.buffer with dirty := false }) := by
    rw [Buffer.save, if_pos dirty, named]
    dsimp only
    rw [Disk.write_of_creates creates, named]
  rw [save, if_pos dirty, saved]
  dsimp only
  rw [named]
  rfl

/-- A marked text without a file, or whose file cannot be made, stays as it is. -/
theorem save_of_refused (dirty : editor.buffer.dirty = true)
    (refused : ∀ path location, editor.buffer.path = some path → ¬ disk.Creates path location) :
    ∃ failure : Failure,
      editor.save disk = (disk, editor.setMessage ("Kuskure: " ++ failure.message)) := by
  have failed : ∃ failure, editor.buffer.save disk = .error failure := by
    rw [Buffer.save, if_pos dirty]
    cases named : editor.buffer.path with
    | none => exact ⟨.noPath, rfl⟩
    | some path =>
        obtain ⟨failure, error⟩ := Disk.exists_write_eq_error
          (fun location => refused path location named) (encodeText editor.buffer.text)
        refine ⟨failure, ?_⟩
        dsimp only
        rw [error]
  obtain ⟨failure, error⟩ := failed
  refine ⟨failure, ?_⟩
  rw [save, if_pos dirty, error]

/-- The buffer is kept under a path, and while it is not marked it has the text that the path stands
for. -/
structure Kept (path : Option String) (disk : Disk) (editor : Editor) : Prop where
  named : editor.buffer.path = path
  holds : ∀ file, path = some file → editor.buffer.dirty = false →
    disk.Holds file editor.buffer.text

variable {path : Option String}

theorem Kept.of_edits (kept : Kept path disk editor) (edits : editor.buffer.Edits next.buffer) :
    Kept path disk next where
  named := edits.path.trans kept.named
  holds := by
    intro file same clean
    rcases edits.marked with unchanged | marked
    · rw [unchanged] at clean ⊢
      exact kept.holds file same clean
    · rw [marked] at clean
      cases clean

theorem Kept.save (kept : Kept path disk editor) :
    Kept path (editor.save disk).1 (editor.save disk).2 := by
  by_cases dirty : editor.buffer.dirty = true
  · by_cases creates : ∃ file location, path = some file ∧ disk.Creates file location
    · obtain ⟨file, location, rfl, creates⟩ := creates
      rw [save_of_creates dirty kept.named creates]
      refine ⟨kept.named, ?_⟩
      intro other same _
      obtain rfl := Option.some.inj same
      exact Or.inl (Disk.wrote_put creates _).content
    · have refused : ∀ file location, editor.buffer.path = some file →
          ¬ disk.Creates file location := by
        intro file location named created
        exact creates ⟨file, location, kept.named.symm.trans named, created⟩
      obtain ⟨failure, unsaved⟩ := save_of_refused dirty refused
      rw [unsaved]
      exact ⟨kept.named, kept.holds⟩
  · rw [save_of_clean disk (by simpa using dirty)]
    exact ⟨kept.named, kept.holds⟩

/-- One event. -/
theorem Kept.handle? (kept : Kept path disk editor) {event : Event}
    (success : editor.handle? disk event = some (written, next)) : Kept path written next := by
  cases saves : event.saves with
  | true =>
      have quiet : Kept path disk { editor with message := none } := ⟨kept.named, kept.holds⟩
      rw [handle?_of_saves saves, Option.some.injEq] at success
      have saved := quiet.save
      rwa [success] at saved
  | false =>
      obtain ⟨rfl, edits⟩ := handle?_of_not_saves saves success
      exact kept.of_edits edits

/-- Answers events in turn. At each of them the system refuses what it then does. -/
def handleEach? (disk : Disk) (editor : Editor) :
    List (Denials × Event) → Option (Disk × Editor)
  | [] => some (disk, editor)
  | (denials, event) :: rest =>
      match editor.handle? { disk with denials } event with
      | some (written, next) => next.handleEach? written rest
      | none => none

/-- What stands on a disk does not depend on what may be done with it. -/
theorem Kept.under (kept : Kept path disk editor) (denials : Denials) :
    Kept path { disk with denials } editor :=
  ⟨kept.named, fun file same clean => (kept.holds file same clean).under denials⟩

/-- Any number of events. -/
theorem Kept.handleEach? (kept : Kept path disk editor) {events : List (Denials × Event)}
    (success : editor.handleEach? disk events = some (written, next)) :
    Kept path written next := by
  induction events generalizing disk editor with
  | nil =>
      cases success
      exact kept
  | cons first rest ih =>
      obtain ⟨denials, event⟩ := first
      rw [Editor.handleEach?] at success
      split at success
      · next answered => exact ih ((kept.under denials).handle? answered) success
      · cases success

/-- How a surface comes to be: on the file at a path, or on a text that has none. -/
inductive Starts (disk : Disk) (tabWidth : Nat) : Option String → Editor → Prop
  | file {path : String} {editor : Editor} (opened : openFile disk path tabWidth = .ok editor) :
      Starts disk tabWidth (some path) editor
  | text (text : Text) : Starts disk tabWidth none (ofBuffer (Buffer.ofText text) tabWidth)

theorem Starts.kept {tabWidth : Nat} (starts : Starts disk tabWidth path editor) :
    Kept path disk editor := by
  cases starts with
  | @file path editor opened =>
      unfold openFile at opened
      cases found : Buffer.openFile disk path with
      | error failure =>
          rw [found] at opened
          cases opened
      | ok buffer =>
          rw [found] at opened
          cases opened
          obtain ⟨_, text, holds, rfl⟩ := (Buffer.openFile_eq_ok_iff disk path buffer).mp found
          refine ⟨rfl, ?_⟩
          intro file same _
          obtain rfl := Option.some.inj same
          exact holds
  | text text =>
      refine ⟨rfl, ?_⟩
      intro file same
      cases same

/-- What an event does to the disk and, if it saves, to the surface. Nothing is written but by
saving a marked text; where the file can be made it holds the text from then on, nothing else on the
disk is different and the text is marked no more; where it cannot, or where there is no path, the
message is all that changes. -/
structure Persists (path : Option String) (disk : Disk) (editor : Editor) (event : Event)
    (written : Disk) (next : Editor) : Prop where
  idle : ¬ (event.saves = true ∧ editor.buffer.dirty = true) → written = disk
  saved : event.saves = true → editor.buffer.dirty = true →
    ∀ file location, path = some file → disk.Creates file location →
      disk.Wrote written file (encodeText editor.buffer.text) location ∧
        next = { editor with
          buffer := { editor.buffer with dirty := false }
          message := some ("An ajiye " ++ file) }
  refused : event.saves = true → editor.buffer.dirty = true →
    (∀ file location, path = some file → ¬ disk.Creates file location) →
      written = disk ∧
        ∃ failure : Failure, next = editor.setMessage ("Kuskure: " ++ failure.message)

theorem Kept.persists (kept : Kept path disk editor) {event : Event}
    (success : editor.handle? disk event = some (written, next)) :
    Persists path disk editor event written next := by
  let quiet := { editor with message := none }
  have saving : event.saves = true → quiet.save disk = (written, next) := by
    intro saves
    rw [handle?_of_saves saves] at success
    exact Option.some.inj success
  constructor
  case idle =>
    intro other
    cases saves : event.saves with
    | true =>
        have clean : quiet.buffer.dirty = false := by simpa [saves] using other
        have same := saving saves
        rw [save_of_clean disk clean] at same
        exact (congrArg Prod.fst same).symm
    | false => exact (handle?_of_not_saves saves success).1
  case saved =>
    intro saves dirty file location same creates
    have marked : quiet.buffer.dirty = true := dirty
    have named : quiet.buffer.path = some file := kept.named.trans same
    have stored := saving saves
    rw [save_of_creates marked named creates] at stored
    cases stored
    exact ⟨Disk.wrote_put creates _, rfl⟩
  case refused =>
    intro saves dirty refused
    have marked : quiet.buffer.dirty = true := dirty
    have nowhere : ∀ file location, quiet.buffer.path = some file →
        ¬ disk.Creates file location := by
      intro file location named
      exact refused file location (kept.named.symm.trans named)
    obtain ⟨failure, unsaved⟩ := save_of_refused marked nowhere
    have same := saving saves
    rw [unsaved] at same
    cases same
    exact ⟨rfl, failure, rfl⟩

/-- Whatever events a surface has answered since it was opened, and whatever the system refused in
the meantime: while its text is not marked, its path stands for that text, and every further event
writes to the disk, and tells so, only as it should. -/
theorem handleEach?_persists {tabWidth : Nat} {start : Editor}
    (starts : Starts disk tabWidth path start) {events : List (Denials × Event)}
    (reached : start.handleEach? disk events = some (written, editor)) :
    (∀ file, path = some file → editor.buffer.dirty = false →
        written.Holds file editor.buffer.text) ∧
      ∀ denials event later next,
        editor.handle? { written with denials } event = some (later, next) →
          Persists path { written with denials } editor event later next := by
  have kept := starts.kept.handleEach? reached
  exact ⟨kept.holds, fun denials _ _ _ success => (kept.under denials).persists success⟩

def sampleDisk : Disk :=
  Disk.empty.put ["a.ha".toList] (.file (encodeText "ga".toList))

/-- The system takes no writing to any file. -/
def writeProtected : Denials :=
  { Denials.none with writing := fun _ => some ⟨"Permission denied", 13⟩ }

/-- A letter typed into a file, which is then saved, first in vain and then with success. Between
the two the file is as it was. -/
theorem handleEach?_persists_letter :
    ∃ start unsaved editor,
      Starts sampleDisk 2 (some "a.ha") start ∧
      start.handleEach? sampleDisk
          [(.none, .press (.char 'x')), (writeProtected, .control 's')] =
        some ({ sampleDisk with denials := writeProtected }, unsaved) ∧
      unsaved.buffer.dirty = true ∧
      unsaved.message = some "Kuskure: Permission denied (os error 13)" ∧
      start.handleEach? sampleDisk
          [(.none, .press (.char 'x')), (writeProtected, .control 's'), (.none, .control 's')] =
        some (sampleDisk.put ["a.ha".toList] (.file (encodeText "xga".toList)), editor) ∧
      editor.buffer.dirty = false ∧
      (sampleDisk.put ["a.ha".toList] (.file (encodeText "xga".toList))).Holds "a.ha"
        "xga".toList := by
  let start : Editor := ofBuffer ⟨"ga".toList, some "a.ha", false⟩ 2
  let typed : Editor :=
    { ofBuffer ⟨"xga".toList, some "a.ha", true⟩ 2 with cursor := ⟨0, 1⟩ }
  let editor : Editor :=
    { ofBuffer ⟨"xga".toList, some "a.ha", false⟩ 2 with
      cursor := ⟨0, 1⟩
      message := some ("An ajiye " ++ "a.ha") }
  have present : sampleDisk.Holds "a.ha" "ga".toList := Or.inl rfl
  have opened : Buffer.openFile sampleDisk "a.ha" = .ok start.buffer :=
    (Buffer.openFile_eq_ok_iff _ _ _).mpr ⟨rfl, _, present, rfl⟩
  have starts : Starts sampleDisk 2 (some "a.ha") start := .file (by rw [openFile, opened]; rfl)
  have reached : start.handleEach? sampleDisk
      [(.none, .press (.char 'x')), (writeProtected, .control 's'), (.none, .control 's')] =
        some (sampleDisk.put ["a.ha".toList] (.file (encodeText "xga".toList)), editor) := rfl
  obtain ⟨holds, _⟩ := handleEach?_persists starts reached
  exact ⟨start, typed.setMessage ("Kuskure: " ++ "Permission denied (os error 13)"), editor, starts,
    rfl, rfl, rfl, reached, rfl, holds "a.ha" rfl rfl⟩

end Editor

end Dabara
