import Dabara.Proofs.CursorCell
import Dabara.Proofs.Scrolling

set_option autoImplicit false

namespace Dabara

namespace Terminal

def Command.target? : Command → Option (Nat × Nat)
  | moveTo column row => some (column, row)
  | _ => none

/-- Where the last of the commands that move the cursor puts it. -/
def lastTarget? (commands : List Command) : Option (Nat × Nat) :=
  (commands.filterMap Command.target?).getLast?

namespace View

variable {view : View} {theme : Theme} {editor : Editor}

/-- The last move of a frame is to the cell of the cursor. -/
theorem lastTarget?_of_frame? {commands : List Command}
    (drawn : view.frame? theme editor = some commands) :
    lastTarget? commands = view.cursorCell? editor := by
  unfold frame? at drawn
  split at drawn
  · cases drawn
  · split at drawn
    · next cell status found _ =>
        obtain rfl := Option.some.inj drawn
        rw [found, lastTarget?, List.filterMap_append]
        exact List.getLast?_concat
    · cases drawn

/-- Where lines can be counted, a frame can be made exactly if there is a cell for the cursor. -/
theorem frame?_eq_none_iff (counted : view.passesLastNumber editor = false)
    (numbered : editor.atLastNumber = false) :
    view.frame? theme editor = none ↔ view.cursorCell? editor = none := by
  obtain ⟨status, drawn⟩ := exists_statusLine?_of_numbered numbered view theme
  rw [frame?, counted, drawn]
  cases view.cursorCell? editor <;> simp

end View

end Terminal

namespace CommandLine.Session

open Terminal (Command View cellLimit lastTarget?)

/-- The frame of a session can be made, and its last move is to the given cell. -/
def Addresses (session : Session) (column row : Nat) : Prop :=
  ∃ commands, session.frame? = some commands ∧ lastTarget? commands = some (column, row)

section Scrolled

variable {before session : Session} (scrolled : before.scrolled? = some session)
  (tall : 2 ≤ session.view.height.toNat)
include scrolled tall

theorem cursorCell?_of_scrolled? :
    session.view.cursorCell? session.editor =
      if session.view.gutterWidth + session.editor.cursor.column % cellLimit + 1 < cellLimit then
        some (session.view.gutterWidth + session.editor.cursor.column % cellLimit,
          session.editor.cursor.line - session.editor.scroll)
      else none := by
  have follows := followsCursor_of_scrolled? scrolled
  have below := follows.below tall
  have height := session.view.height.toNat_lt
  apply View.cursorCell?_of_row session.view follows.above
  rw [View.statusRow] at below
  unfold cellLimit
  omega

theorem frame?_eq_none_iff_of_scrolled? :
    session.frame? = none ↔ session.view.cursorCell? session.editor = none := by
  obtain ⟨editor, adjusted, rfl⟩ := Option.map_eq_some_iff.mp scrolled
  have room : 0 < before.view.textHeight := Nat.sub_pos_of_lt tall
  obtain ⟨fits, visible⟩ := Editor.adjustScroll?_bounds adjusted room
  apply View.frame?_eq_none_iff
  · have inside : ¬ countLimit < before.view.textHeight + editor.scroll := by omega
    simp [View.passesLastNumber, inside]
  · have inside : ¬ countLimit ≤ editor.cursor.line + 1 := by omega
    simp [Editor.atLastNumber, inside]

theorem addresses_iff_of_scrolled? (column row : Nat) :
    session.Addresses column row ↔
      session.view.cursorCell? session.editor = some (column, row) := by
  constructor
  · rintro ⟨commands, drawn, target⟩
    rw [← View.lastTarget?_of_frame? drawn, target]
  · intro cell
    cases drawn : session.frame? with
    | none =>
        rw [(frame?_eq_none_iff_of_scrolled? scrolled tall).mp drawn] at cell
        cases cell
    | some commands =>
        exact ⟨commands, drawn, (View.lastTarget?_of_frame? drawn).trans cell⟩

/-- The cell of the cursor is addressed exactly if its number fits. -/
theorem addresses_cursor_iff :
    session.Addresses (session.view.gutterWidth + session.editor.cursor.column)
        (session.editor.cursor.line - session.editor.scroll) ↔
      session.view.gutterWidth + session.editor.cursor.column + 1 < cellLimit := by
  rw [addresses_iff_of_scrolled? scrolled tall, cursorCell?_of_scrolled? scrolled tall]
  have cut := Nat.mod_le session.editor.cursor.column cellLimit
  constructor
  · intro cell
    obtain ⟨fits, same⟩ := Option.ite_none_right_eq_some.mp cell
    have column := congrArg Prod.fst (Option.some.inj same)
    dsimp only at column
    omega
  · intro fits
    have same : session.editor.cursor.column % cellLimit = session.editor.cursor.column :=
      Nat.mod_eq_of_lt (by omega)
    rw [same, if_pos fits]

end Scrolled

/-- Whatever the events and the sizes of the terminal, a frame of at least two rows can be made and
puts the cursor on its row, behind the gutter at its column, exactly if sixteen bits hold the number
of that cell. Otherwise the column is cut to sixteen bits, and if then the gutter takes it past the
last cell, there is no frame. The frames of an open session are what it prints, and one that cannot
be made ends it. -/
theorem renders_address_cursor_iff (session : Session) (events : List Event) {rendered : Session}
    (member : rendered ∈ session.renders events) (tall : 2 ≤ rendered.view.height.toNat) :
    let column := rendered.view.gutterWidth + rendered.editor.cursor.column
    let cut := rendered.view.gutterWidth + rendered.editor.cursor.column % cellLimit
    let row := rendered.editor.cursor.line - rendered.editor.scroll
    (rendered.Addresses column row ↔ column + 1 < cellLimit) ∧
      (rendered.Addresses cut row ↔ cut + 1 < cellLimit) ∧
      (rendered.frame? = none ↔ cellLimit ≤ cut + 1) ∧
      (session.editor.running = true → session.Draws events) := by
  intro column cut row
  obtain ⟨before, scrolled⟩ := exists_scrolled?_of_mem_renders member
  have cell := cursorCell?_of_scrolled? scrolled tall
  refine ⟨addresses_cursor_iff scrolled tall, ?_, ?_, fun opened => draws_of_running opened events⟩
  · rw [addresses_iff_of_scrolled? scrolled tall, cell]
    simp [cut, row]
  · rw [frame?_eq_none_iff_of_scrolled? scrolled tall, cell]
    simp [cut]

/-- A buffer in a view with one row for text, the cursor at a column of the first line. -/
def onFirstLine (buffer : Buffer) (column : Nat) : Session where
  disk := Disk.empty
  editor := (Editor.ofBuffer buffer 2).moveTo 0 column
  view := ⟨10, 2, true⟩
  theme := Theme.nord

theorem scrolled?_onFirstLine (buffer : Buffer) (column : Nat) :
    (onFirstLine buffer column).scrolled? = some (onFirstLine buffer column) := rfl

theorem addresses_onFirstLine_iff (buffer : Buffer) (column : Nat) :
    (onFirstLine buffer column).Addresses (4 + column) 0 ↔ 4 + column + 1 < cellLimit :=
  addresses_cursor_iff (scrolled?_onFirstLine buffer column) (Nat.le_refl 2)

/-- The end of the first line is drawn after the key that leads there. -/
theorem onFirstLine_mem_renders {buffer : Buffer} {length : Nat}
    (found : buffer.lineLength? 0 = some length) :
    onFirstLine buffer length ∈ (onFirstLine buffer 0).renders [.press .lineEnd] := by
  have pressed : (Editor.ofBuffer buffer 2).lineEnd? =
      some ((Editor.ofBuffer buffer 2).moveTo 0 length) :=
    Option.map_eq_some_iff.mpr ⟨length, found, rfl⟩
  have answered : (onFirstLine buffer 0).answer? (.press .lineEnd) =
      some (onFirstLine buffer length) := by
    show ((((Editor.ofBuffer buffer 2).lineEnd?).map (Disk.empty, ·)).map fun after =>
      { onFirstLine buffer 0 with disk := after.1, editor := after.2 }) = _
    rw [pressed]
    rfl
  obtain ⟨commands, drawn, _⟩ := (addresses_onFirstLine_iff buffer 0).mpr (by decide)
  have next : (onFirstLine buffer 0).successor? (.press .lineEnd) =
      some (onFirstLine buffer length) := by
    rw [successor?, opened?, draw?_eq, scrolled?_onFirstLine, Option.bind_some, drawn]
    exact answered
  rw [renders, next]
  simp [renders, scrolled?_onFirstLine]

/-- The cursor at the end of a line of two letters. -/
theorem renders_address_cursor_iff_second :
    let session := onFirstLine (Buffer.ofText ['a', 'b']) 0
    let rendered := onFirstLine (Buffer.ofText ['a', 'b']) 2
    rendered ∈ session.renders [.press .lineEnd] ∧ rendered.Addresses 6 0 ∧
      session.Draws [.press .lineEnd] := by
  intro session rendered
  have member := onFirstLine_mem_renders (show (Buffer.ofText ['a', 'b']).lineLength? 0 = some 2 by
    decide)
  obtain ⟨addresses, _, _, draws⟩ := renders_address_cursor_iff _ _ member (Nat.le_refl 2)
  exact ⟨member, addresses.mpr (by decide), draws rfl⟩

theorem lineLength?_spaces (length : Nat) :
    (Buffer.ofText (List.replicate length ' ')).lineLength? 0 = some length := by
  have unbroken := unbroken_spaces length
  rw [Buffer.lineLength?, Buffer.line?, Buffer.ofText, lines_of_unbroken unbroken]
  simp [breakLength_of_unbroken unbroken]

/-- At the end of a line of 65532 characters the gutter takes the cursor past the last cell. -/
theorem not_renders_address_cursor_always :
    ¬ ∀ (disk : Disk) (buffer : Buffer) (tabWidth : Nat) (view : View) (theme : Theme)
      (events : List Event),
      ∀ rendered ∈ (Session.mk disk (Editor.ofBuffer buffer tabWidth) view theme).renders events,
        2 ≤ rendered.view.height.toNat →
        rendered.Addresses (rendered.view.gutterWidth + rendered.editor.cursor.column)
          (rendered.editor.cursor.line - rendered.editor.scroll) := by
  intro always
  have member := onFirstLine_mem_renders (lineLength?_spaces 65532)
  generalize Buffer.ofText (List.replicate 65532 ' ') = buffer at member
  have addresses : (onFirstLine buffer 65532).Addresses (4 + 65532) 0 :=
    always Disk.empty buffer 2 ⟨10, 2, true⟩ Theme.nord [.press .lineEnd] _ member (Nat.le_refl 2)
  rw [addresses_onFirstLine_iff] at addresses
  exact absurd addresses (by decide)

end CommandLine.Session

end Dabara
