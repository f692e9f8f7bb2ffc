import Dabara.Proofs.CursorRange
import Dabara.Proofs.ScreenRows

set_option autoImplicit false

namespace Dabara.Terminal

namespace View

/-- What was printed on the row of a line: a gutter, and behind it the first characters of the
line's text and spaces for the room that is left. -/
structure Holds (view : View) (editor : Editor) (row : Nat) (marks : List Placed)
    (gutter content : List Cell) : Prop where
  printed : marks = placed row 0 (gutter ++ content)
  line : ∃ line, editor.buffer.line? (row + editor.scroll) = some line ∧
    content.map Cell.char = (trimBreak line).take view.textWidth ++
      List.replicate (view.textWidth - (trimBreak line).length) ' '

/-- A row that ends at the edge, with the text of its line behind the gutter that is counted. -/
def RowAligned (view : View) (editor : Editor) (row : Nat) (marks : List Placed) : Prop :=
  ∃ gutter content, view.Holds editor row marks gutter content ∧
    gutter.length = view.gutterWidth ∧ (gutter ++ content).length = view.width.toNat

/-- A screen whose cursor is where the character was printed that the cursor of the text stands
before, or the padding there. -/
def CursorAligned (view : View) (editor : Editor) (screen : Screen) : Prop :=
  let row := editor.cursor.line - editor.scroll
  ∃ gutter content cell, view.Holds editor row (screen.onRow row) gutter content ∧
    content[editor.cursor.column]? = some cell ∧
    (screen.onRow row)[gutter.length + editor.cursor.column]? =
      some ⟨screen.row, screen.column, cell⟩

/-- The cursor's line is on one of the rows, and its column before the edge. -/
structure ShowsCursor (view : View) (editor : Editor) : Prop where
  above : editor.scroll ≤ editor.cursor.line
  below : editor.cursor.line - editor.scroll < view.textHeight
  column : editor.cursor.column < view.textWidth

theorem length_gutterText (number : Nat) :
    (gutterText number).length = max 3 (decimal number).length + 1 := by
  simp only [gutterText, List.length_append, List.length_replicate, List.length_singleton]
  omega

/-- The gutter has its fixed width as long as three digits are enough for the number. -/
theorem length_gutterText_eq_iff (number : Nat) :
    (gutterText number).length = 4 ↔ number < 1000 := by
  have digits : (decimal number).length ≤ 3 ↔ number < 10 ^ 3 :=
    Nat.length_toDigits_le_iff (by decide) (by decide)
  rw [length_gutterText]
  omega

section Rows

variable {view : View} {theme : Theme} {editor : Editor} {row : Nat} {marks : List Placed}
  {gutter content : List Cell}

theorem length_gutterCells (numbered : view.lineNumbers = true) (line : Nat) :
    (view.gutterCells theme editor line).length = (gutterText (line + 1)).length := by
  rw [gutterCells, if_pos numbered, List.length_map]

theorem gutterWidth_of_lineNumbers (numbered : view.lineNumbers = true) : view.gutterWidth = 4 :=
  if_pos numbered

theorem Holds.length_content (holds : view.Holds editor row marks gutter content) :
    content.length = view.textWidth := by
  obtain ⟨line, _, characters⟩ := holds.line
  rw [← List.length_map Cell.char, characters, List.length_append, List.length_take,
    List.length_replicate]
  omega

/-- What was printed on a row says how wide its gutter is. -/
theorem Holds.length_gutter (holds : view.Holds editor row marks gutter content) :
    gutter.length + view.textWidth = marks.length := by
  rw [holds.printed, length_placed, List.length_append, holds.length_content]

theorem Holds.rowAligned_iff (holds : view.Holds editor row marks gutter content)
    (wide : view.gutterWidth ≤ view.width.toNat) :
    view.RowAligned editor row marks ↔ gutter.length = view.gutterWidth := by
  constructor
  · rintro ⟨other, text, split, width, _⟩
    have same := split.length_gutter.trans holds.length_gutter.symm
    omega
  · intro width
    refine ⟨gutter, content, holds, width, ?_⟩
    rw [List.length_append, holds.length_content, width, textWidth]
    omega

theorem Holds.getElem?_marks (holds : view.Holds editor row marks gutter content) (column : Nat) :
    marks[gutter.length + column]? =
      content[column]?.map (Placed.mk row (gutter.length + column)) := by
  rw [holds.printed, getElem?_placed, List.getElem?_append_right (Nat.le_add_right _ _),
    Nat.add_sub_cancel_left, Nat.zero_add]

theorem Holds.cursorAligned_iff {screen : Screen}
    (holds : view.Holds editor (editor.cursor.line - editor.scroll)
      (screen.onRow (editor.cursor.line - editor.scroll)) gutter content)
    (inside : editor.cursor.column < view.textWidth)
    (onRow : screen.row = editor.cursor.line - editor.scroll)
    (onColumn : screen.column = view.gutterWidth + editor.cursor.column) :
    view.CursorAligned editor screen ↔ gutter.length = view.gutterWidth := by
  constructor
  · rintro ⟨other, text, cell, split, present, found⟩
    have same := split.length_gutter.trans holds.length_gutter.symm
    rw [split.getElem?_marks, present, Option.map_some, Option.some.injEq] at found
    have column := congrArg Placed.column found
    dsimp only at column
    omega
  · intro width
    rw [← holds.length_content] at inside
    have present := List.getElem?_eq_getElem inside
    refine ⟨gutter, content, _, holds, present, ?_⟩
    rw [holds.getElem?_marks, present, Option.map_some, onRow, onColumn, width]

theorem ShowsRows.exists_holds {count : Nat} {screen : Screen}
    (shows : view.ShowsRows theme editor count screen) (shown : row < count)
    (onLine : row + editor.scroll < editor.buffer.lineCount) :
    ∃ content, view.Holds editor row (screen.onRow row)
      (view.gutterCells theme editor (row + editor.scroll)) content := by
  obtain ⟨cells, printed, showsRow⟩ := shows.rows row shown
  have present : editor.buffer.line? (row + editor.scroll) = some _ :=
    List.getElem?_eq_getElem onLine
  obtain ⟨content, rfl, showsLine⟩ := showsRow.line _ present
  exact ⟨content, printed, _, present, showsLine.characters⟩

/-- The rows of the lines before the thousandth, and no others, are as wide as they should be. -/
theorem rowAligned_rows_iff (fresh : editor.Fresh) (theme : Theme)
    (numbered : view.lineNumbers = true) (wide : 4 ≤ view.width.toNat) {pen : Pen}
    (upright : pen.Upright) (shown : row < view.textHeight)
    (onLine : row + editor.scroll < editor.buffer.lineCount) :
    view.RowAligned editor row
        (((Screen.blank pen).performAll (view.rows theme editor)).onRow row) ↔
      row + editor.scroll + 1 < 1000 := by
  have shows := showsRows_rows view theme fresh upright
  have counted := gutterWidth_of_lineNumbers numbered
  obtain ⟨content, holds⟩ := shows.exists_holds shown onLine
  rw [holds.rowAligned_iff (by omega), length_gutterCells numbered, counted,
    length_gutterText_eq_iff]

end Rows

section Frame

variable {view : View} {theme : Theme} {editor : Editor}

/-- Where the terminal can hold the row of the cursor, only the column decides. -/
theorem cursorCell?_of_row (view : View) (above : editor.scroll ≤ editor.cursor.line)
    (fits : editor.cursor.line - editor.scroll + 1 < cellLimit) :
    view.cursorCell? editor =
      if view.gutterWidth + editor.cursor.column % cellLimit + 1 < cellLimit then
        some (view.gutterWidth + editor.cursor.column % cellLimit,
          editor.cursor.line - editor.scroll)
      else none := by
  have sameRow : (editor.cursor.line - editor.scroll) % cellLimit =
      editor.cursor.line - editor.scroll := Nat.mod_eq_of_lt (by omega)
  rw [View.cursorCell?, sameRow]
  simp only [above, fits, true_and, and_true]

/-- A column and a row inside the view have numbers that the terminal can hold. -/
theorem ShowsCursor.cursorCell? (shows : view.ShowsCursor editor) :
    view.cursorCell? editor =
      some (view.gutterWidth + editor.cursor.column, editor.cursor.line - editor.scroll) := by
  have width := view.width.toNat_lt
  have height := view.height.toNat_lt
  have below := shows.below
  have column := shows.column
  rw [textHeight] at below
  rw [textWidth] at column
  have sameColumn : editor.cursor.column % cellLimit = editor.cursor.column :=
    Nat.mod_eq_of_lt (by unfold cellLimit; omega)
  rw [cursorCell?_of_row view shows.above (by unfold cellLimit; omega), sameColumn]
  exact if_pos (by unfold cellLimit; omega)

/-- The status can be made as long as the number of the cursor's line can be counted. -/
theorem exists_statusLine?_of_numbered (numbered : editor.atLastNumber = false) (view : View)
    (theme : Theme) : ∃ status, view.statusLine? theme editor = some status := by
  have width := view.width.toNat_lt
  have room : ∀ used, ¬ textLimit ≤ view.width.toNat - used := by
    intro used
    unfold textLimit
    omega
  unfold statusLine?
  cases editor.message with
  | some message => exact ⟨_, rfl⟩
  | none => simp [statusText?, statusRight?, Editor.lineInfo?, numbered, room]

theorem exists_statusLine? (inRange : editor.InRange) (view : View) (theme : Theme) :
    ∃ status, view.statusLine? theme editor = some status := by
  have inside := inRange.line
  have onLine : ¬ editor.buffer.lineCount ≤ editor.cursor.line := by omega
  exact exists_statusLine?_of_numbered (by simp [Editor.atLastNumber, onLine]) view theme

/-- The status is printed below the rows. -/
theorem onRow_performAll_statusLine? {status : List Command}
    (drawn : view.statusLine? theme editor = some status) (screen : Screen) {row : Nat}
    (above : row < view.textHeight) :
    (screen.performAll status).onRow row = screen.onRow row := by
  have other : view.height.toNat - 1 ≠ row := by
    rw [textHeight] at above
    omega
  have below : ∀ (cells : List Cell) (pen last : Pen),
      ({ screen with row := view.height.toNat - 1, column := 0, pen }.stamp cells last).onRow row =
        screen.onRow row := by
    intro cells pen last
    rw [Screen.onRow_stamp, if_neg other, List.append_nil]
    rfl
  unfold statusLine? at drawn
  cases message : editor.message with
  | some text =>
      rw [message] at drawn
      obtain rfl := Option.some.inj drawn
      exact below _ _ _
  | none =>
      rw [message] at drawn
      obtain ⟨text, _, rfl⟩ := Option.map_eq_some_iff.mp drawn
      exact below _ _ _

/-- A surface that shows its cursor can be drawn, and the cursor is put behind the gutter that is
counted, with every row as it was printed. -/
theorem ShowsCursor.exists_frame? (shows : view.ShowsCursor editor) (inRange : editor.InRange)
    (theme : Theme) :
    ∃ commands, view.frame? theme editor = some commands ∧ ∀ pen : Pen,
      let start := { pen with background := some theme.background }
      let rows := (Screen.blank start).performAll (view.rows theme editor)
      let screen := (Screen.blank pen).performAll commands
      screen.row = editor.cursor.line - editor.scroll ∧
        screen.column = view.gutterWidth + editor.cursor.column ∧
        ∀ row < view.textHeight, screen.onRow row = rows.onRow row := by
  obtain ⟨status, drawn⟩ := exists_statusLine? inRange view theme
  have counted : view.passesLastNumber editor = false := by
    have inside := inRange.line
    have above := shows.above
    have visible : ¬ editor.buffer.lineCount ≤ editor.scroll := by omega
    simp [passesLastNumber, visible]
  refine ⟨[.hideCursor, .background theme.background] ++ view.rows theme editor ++ status ++
    [.moveTo (view.gutterWidth + editor.cursor.column) (editor.cursor.line - editor.scroll),
      .barCursor, .showCursor], ?_, ?_⟩
  · rw [frame?, counted, shows.cursorCell?, drawn]
    rfl
  · intro pen start rows screen
    have ended : screen = { rows.performAll status with
        row := editor.cursor.line - editor.scroll
        column := view.gutterWidth + editor.cursor.column } := by
      simp only [screen, Screen.performAll_append]
      rfl
    refine ⟨by rw [ended], by rw [ended], ?_⟩
    intro row above
    rw [ended]
    exact onRow_performAll_statusLine? drawn rows above

end Frame

/-- Whatever has been done to a surface with numbered lines, as long as its cursor is in range: the
row of a line is as wide as the view and has the text of the line behind the counted gutter exactly
if the line is before the thousandth. A surface that shows its cursor can be drawn, and the cursor
of the screen is then in the cell of the character that it stands before exactly on such a line. -/
theorem cursor_in_its_cell_iff (disk : Disk) (buffer : Buffer) (tabWidth : Nat) {acts : List Act}
    {written : Disk} {editor : Editor}
    (reached : (Editor.ofBuffer buffer tabWidth).actAll? disk acts = some (written, editor))
    (inRange : editor.InRange) (theme : Theme) {view : View} (numbered : view.lineNumbers = true)
    (wide : 4 ≤ view.width.toNat) {pen : Pen} (upright : pen.Upright) :
    (∀ row < view.textHeight, row + editor.scroll < editor.buffer.lineCount →
      (view.RowAligned editor row
          (((Screen.blank pen).performAll (view.rows theme editor)).onRow row) ↔
        row + editor.scroll + 1 < 1000)) ∧
    (view.ShowsCursor editor → ∃ commands, view.frame? theme editor = some commands ∧
      (view.CursorAligned editor ((Screen.blank pen).performAll commands) ↔
        editor.cursor.line + 1 < 1000)) := by
  have first : (Editor.ofBuffer buffer tabWidth).Fresh := rfl
  have fresh : editor.Fresh := Editor.actAll?_fresh first reached
  constructor
  · intro row shown onLine
    exact rowAligned_rows_iff fresh theme numbered wide upright shown onLine
  · intro shows
    obtain ⟨commands, drawn, ends⟩ := shows.exists_frame? inRange theme
    refine ⟨commands, drawn, ?_⟩
    obtain ⟨onRow, onColumn, kept⟩ := ends pen
    -- The rows are printed with the background selected before them.
    have start : Pen.Upright { pen with background := some theme.background } :=
      ⟨upright.bold, upright.italic⟩
    have onLine : editor.cursor.line - editor.scroll + editor.scroll = editor.cursor.line :=
      Nat.sub_add_cancel shows.above
    obtain ⟨content, holds⟩ := (showsRows_rows view theme fresh start).exists_holds shows.below
      (by rw [onLine]; exact inRange.line)
    rw [← kept _ shows.below] at holds
    rw [holds.cursorAligned_iff shows.column onRow onColumn, length_gutterCells numbered, onLine,
      gutterWidth_of_lineNumbers numbered, length_gutterText_eq_iff]

/-- The cursor on the second line, behind its only letter. -/
theorem cursor_in_its_cell_iff_second :
    ∃ written editor,
      (Editor.ofBuffer (Buffer.ofText ['a', '\n', 'b']) 2).actAll? Disk.empty
        [.answer (.press .down), .answer (.press .right), .scroll 2] = some (written, editor) ∧
      editor.InRange ∧ editor.cursor = ⟨1, 1⟩ ∧
      ∃ commands, (View.mk 6 3 true).frame? Theme.nord editor = some commands ∧
        (View.mk 6 3 true).CursorAligned editor ((Screen.blank .usual).performAll commands) := by
  let buffer := Buffer.ofText ['a', '\n', 'b']
  let editor : Editor := { Editor.ofBuffer buffer 2 with cursor := ⟨1, 1⟩ }
  have reached : (Editor.ofBuffer buffer 2).actAll? Disk.empty
      [.answer (.press .down), .answer (.press .right), .scroll 2] =
        some (Disk.empty, editor) := rfl
  have inRange : editor.InRange := ⟨by decide, 1, by decide, by decide⟩
  have shows : (View.mk 6 3 true).ShowsCursor editor := ⟨by decide, by decide, by decide⟩
  have upright : Pen.usual.Upright := ⟨rfl, rfl⟩
  obtain ⟨commands, drawn, aligned⟩ := (cursor_in_its_cell_iff Disk.empty buffer 2 reached inRange
    Theme.nord rfl (by decide) upright).2 shows
  exact ⟨Disk.empty, editor, reached, inRange, rfl, commands, drawn, aligned.mpr (by decide)⟩

/-- So many breaks make one line more. -/
theorem length_lines_replicate (count : Nat) :
    (lines (List.replicate count '\n')).length = count + 1 := by
  induction count with
  | zero => rfl
  | succ count ih =>
      have feed : lines ('\n' :: List.replicate count '\n') =
          ['\n'] :: lines (List.replicate count '\n') := rfl
      rw [List.replicate_succ, feed, List.length_cons, ih]

/-- The number of the thousandth line has four digits, and its row passes the edge. -/
theorem not_cursor_in_its_cell_always :
    ¬ ∀ (disk : Disk) (buffer : Buffer) (tabWidth : Nat) (acts : List Act) (written : Disk)
      (editor : Editor),
      (Editor.ofBuffer buffer tabWidth).actAll? disk acts = some (written, editor) →
      editor.InRange → ∀ (theme : Theme) (view : View), view.lineNumbers = true →
      4 ≤ view.width.toNat → ∀ row < view.textHeight,
        row + editor.scroll < editor.buffer.lineCount →
        view.RowAligned editor row
          (((Screen.blank .usual).performAll (view.rows theme editor)).onRow row) := by
  intro always
  obtain ⟨buffer, onLine⟩ : ∃ buffer : Buffer, 999 < buffer.lineCount := by
    refine ⟨Buffer.ofText (List.replicate 999 '\n'), ?_⟩
    show 999 < (lines (List.replicate 999 '\n')).length
    rw [length_lines_replicate]
    decide
  let editor := Editor.ofBuffer buffer 2
  let view : View := ⟨10, 1001, true⟩
  have aligned := always Disk.empty buffer 2 [] Disk.empty editor rfl
    (Editor.ofBuffer_inRange buffer 2) Theme.nord view rfl (by decide) 999 (by decide) onLine
  have fresh : editor.Fresh := rfl
  have upright : Pen.usual.Upright := ⟨rfl, rfl⟩
  rw [rowAligned_rows_iff fresh Theme.nord rfl (by decide) upright (by decide) onLine] at aligned
  have below : 999 + 0 + 1 < 1000 := aligned
  omega

end View

end Dabara.Terminal
