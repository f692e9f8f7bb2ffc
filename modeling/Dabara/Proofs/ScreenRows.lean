import Dabara.Proofs.EditorRefinement
import Dabara.Proofs.Keystrokes
import Dabara.Proofs.Screen
import Dabara.Proofs.Segments
import Dabara.Terminal.View
import Dabara.Theme.Builtin

set_option autoImplicit false

namespace Dabara

/-- What is done to a surface: an event is answered, or the cursor is brought among so many
visible lines. -/
inductive Act
  | answer (event : Event)
  | scroll (height : Nat)
  deriving DecidableEq

namespace Editor

def act? (disk : Disk) (editor : Editor) : Act → Option (Disk × Editor)
  | .answer event => editor.handle? disk event
  | .scroll height => (editor.adjustScroll? height).map (disk, ·)

def actAll? (disk : Disk) (editor : Editor) : List Act → Option (Disk × Editor)
  | [] => some (disk, editor)
  | act :: rest =>
      match editor.act? disk act with
      | some (written, next) => next.actAll? written rest
      | none => none

/-- The highlights are those of the text. -/
def Fresh (editor : Editor) : Prop :=
  editor.highlights = Highlight.perLine editor.buffer.text

section Fresh

variable {editor next : Editor}

/-- No key leaves highlights of another text behind. -/
theorem Pressed.fresh (pressed : editor.Pressed next) (fresh : editor.Fresh) : next.Fresh := by
  cases pressed with
  | moved cursor => exact fresh
  | edited buffer cursor edits => rfl

theorem control_fresh (fresh : editor.Fresh) (disk : Disk) (key : Key) :
    (editor.control disk key).2.Fresh := by
  unfold control
  split
  · exact fresh
  · exact fresh
  · unfold save
    split
    · split
      · next written buffer success =>
          show editor.highlights = Highlight.perLine buffer.text
          rw [text_of_save success]
          exact fresh
      · exact fresh
    · exact fresh
  · exact fresh

theorem handle?_fresh (fresh : editor.Fresh) {disk written : Disk} {event : Event}
    (success : editor.handle? disk event = some (written, next)) : next.Fresh := by
  cases event with
  | key event =>
      have quiet : { editor with message := none }.Fresh := fresh
      rw [handle?] at success
      dsimp only at success
      split at success
      · cases success
        exact fresh
      · split at success
        · obtain rfl : _ = next := congrArg Prod.snd (Option.some.inj success)
          exact control_fresh quiet disk event.key
        · obtain ⟨found, pressed, same⟩ := Option.map_eq_some_iff.mp success
          obtain rfl : found = next := congrArg Prod.snd same
          exact (press?_pressed pressed).fresh quiet
  | _ =>
      cases success
      exact fresh

theorem adjustScroll?_fresh (fresh : editor.Fresh) {height : Nat}
    (success : editor.adjustScroll? height = some next) : next.Fresh := by
  obtain ⟨_, scrolled⟩ := Option.ite_none_left_eq_some.mp success
  obtain rfl := Option.some.inj scrolled
  exact fresh

theorem act?_fresh (fresh : editor.Fresh) {disk written : Disk} {act : Act}
    (success : editor.act? disk act = some (written, next)) : next.Fresh := by
  cases act with
  | answer event => exact handle?_fresh fresh success
  | scroll height =>
      obtain ⟨found, scrolled, same⟩ := Option.map_eq_some_iff.mp success
      obtain rfl : found = next := congrArg Prod.snd same
      exact adjustScroll?_fresh fresh scrolled

/-- After any acts the highlights are those of the text. -/
theorem actAll?_fresh (fresh : editor.Fresh) {disk written : Disk} {acts : List Act}
    (success : editor.actAll? disk acts = some (written, next)) : next.Fresh := by
  induction acts generalizing editor disk with
  | nil =>
      cases success
      exact fresh
  | cons act rest ih =>
      rw [actAll?] at success
      split at success
      · next middle found => exact ih (act?_fresh fresh found) success
      · cases success

end Fresh

end Editor

namespace Terminal

/-- A pen that is neither bold nor italic. -/
structure Pen.Upright (pen : Pen) : Prop where
  bold : pen.bold = false
  italic : pen.italic = false

/-- A pen that is upright on a background. -/
structure Pen.UprightOn (pen : Pen) (background : Color) : Prop extends pen.Upright where
  background : pen.background = some background

/-- A background that is selected already stays selected. -/
theorem Screen.perform_background {screen : Screen} {color : Color}
    (chosen : screen.pen.background = some color) :
    screen.perform (.background color) = screen := by
  obtain ⟨row, column, ⟨foreground, background, bold, italic⟩, marks⟩ := screen
  obtain rfl : background = some color := chosen
  rfl

namespace View

def painted (theme : Theme) (mark : Char × Category) : Cell :=
  ⟨mark.1, .ofStyle (theme.styleFor mark.2) theme.background⟩

/-- A piece of text is printed in its style, and the pen behind it is upright again. -/
theorem performAll_styled (theme : Theme) (style : Style) (text : Text) {screen : Screen}
    (ready : screen.pen.UprightOn theme.background) :
    ∃ pen : Pen, pen.UprightOn theme.background ∧
      screen.performAll (styled theme style text) =
        screen.stamp (text.map (⟨·, .ofStyle style theme.background⟩)) pen := by
  obtain ⟨row, column, ⟨foreground, background, bold, italic⟩, marks⟩ := screen
  obtain ⟨⟨rfl, rfl⟩, rfl⟩ := ready
  obtain ⟨color, bold, italic⟩ := style
  -- A bold or italic style resets the pen and selects the background again; one that is neither
  -- leaves nothing behind but its color.
  cases bold <;> cases italic
  all_goals exact ⟨_, ⟨⟨rfl, rfl⟩, rfl⟩, rfl⟩

/-- Pieces are printed as far as there is room, each character in the style of its category. -/
theorem performAll_paintRow (theme : Theme) (parts : List Fragment) (room : Nat) {screen : Screen}
    (ready : screen.pen.UprightOn theme.background) :
    ∃ pen : Pen, pen.UprightOn theme.background ∧
      screen.performAll (paintRow theme room parts).1 =
        screen.stamp (((Fragment.tagged parts).take room).map (painted theme)) pen := by
  induction parts generalizing room screen with
  | nil =>
      refine ⟨screen.pen, ready, ?_⟩
      rw [Fragment.tagged_nil, List.take_nil, List.map_nil, screen.stamp_nil]
      rfl
  | cons part rest ih =>
      rw [paintRow]
      split
      · next full =>
          refine ⟨screen.pen, ready, ?_⟩
          rw [full, List.take_zero, List.map_nil, screen.stamp_nil]
          rfl
      · obtain ⟨middle, middleReady, printed⟩ :=
          performAll_styled theme (theme.styleFor part.category) (part.text.take room) ready
        have same : (part.text.take room).map
            (⟨·, .ofStyle (theme.styleFor part.category) theme.background⟩) =
              ((part.text.map (·, part.category)).take room).map (painted theme) := by
          rw [← List.map_take, List.map_map]
          rfl
        have left : room - (part.text.take room).length = room - part.text.length := by
          rw [List.length_take]
          omega
        rw [same] at printed
        dsimp only
        rw [left, Screen.performAll_append, printed, Fragment.tagged_cons, List.take_append,
          List.length_map, List.map_append]
        -- The pieces that follow start with the pen that this one leaves.
        generalize ((part.text.map (·, part.category)).take room).map (painted theme) = cells
        have stampReady : (screen.stamp cells middle).pen.UprightOn theme.background := middleReady
        obtain ⟨pen, penReady, later⟩ := ih (room - part.text.length) stampReady
        refine ⟨pen, penReady, ?_⟩
        rw [later, Screen.stamp_stamp]

/-- The room behind the pieces is what they leave. -/
theorem paintRow_room (theme : Theme) (parts : List Fragment) (room : Nat) :
    (paintRow theme room parts).2 = room - (Fragment.tagged parts).length := by
  induction parts generalizing room with
  | nil => rfl
  | cons part rest ih =>
      rw [paintRow]
      split
      · omega
      · dsimp only
        rw [ih, List.length_take, Fragment.tagged_cons, List.length_append, List.length_map]
        omega

/-- What a row holds of a line's text, which begins at byte `start` of the source: its first
characters and spaces up to the edge, each character in the style of the token that it belongs to,
and under the spaces nothing but the background. -/
structure ShowsLine (theme : Theme) (tokens : List Token) (start : Nat) (text : Text)
    (width : Nat) (cells : List Cell) : Prop where
  characters : cells.map Cell.char = text.take width ++ List.replicate (width - text.length) ' '
  styles : ∀ column c cell, text[column]? = some c → cells[column]? = some cell →
    ∃ token, tokens.filter (·.covers (start + byteLength (text.take column))) = [token] ∧
      cell.pen = .ofStyle (theme.styleFor token.category) theme.background
  padding : ∀ column cell, text.length ≤ column → cells[column]? = some cell →
    cell.pen.UprightOn theme.background

/-- The cells of painted characters, cut off at the edge and filled up to it. -/
theorem showsLine_painted {theme : Theme} {tokens : List Token} {start : Nat} {text : Text}
    {highlights : List Highlight} (paints : Paints tokens start text highlights) (width : Nat)
    {pen : Pen} (upright : pen.UprightOn theme.background) :
    ShowsLine theme tokens start text width
      (((tag (Highlight.categoryAt highlights) 0 text).take width).map (painted theme) ++
        List.replicate (width - text.length) ⟨' ', pen⟩) where
  characters := by
    have letters : ∀ marks : List (Char × Category),
        (marks.map (painted theme)).map Cell.char = marks.map Prod.fst := by
      intro marks
      rw [List.map_map]
      rfl
    rw [List.map_append, letters, List.map_take, map_fst_tag, List.map_replicate]
  styles := by
    intro column c cell present found
    have inside := (List.getElem?_eq_some_iff.mp present).1
    by_cases shown : column < width
    · obtain ⟨token, only, category⟩ := paints.categoryAt (byteLength_take_lt inside)
      refine ⟨token, only, ?_⟩
      rw [List.getElem?_append_left (by simp; omega), List.getElem?_map,
        List.getElem?_take_of_lt shown, getElem?_tag, present, Option.map_some, Option.map_some,
        Nat.zero_add, category] at found
      rw [← Option.some.inj found]
      rfl
    · rw [List.getElem?_eq_none (by simp; omega)] at found
      cases found
  padding := by
    intro column cell behind found
    rw [List.getElem?_append_right (by simp; omega), List.getElem?_replicate] at found
    split at found
    · obtain rfl := Option.some.inj found
      exact upright
    · cases found

/-- The text of a painted line is printed in the styles of its tokens and filled up to the edge. -/
theorem performAll_lineContent (view : View) (theme : Theme) {tokens : List Token} {start : Nat}
    {line : Text} {highlights : List Highlight}
    (paints : Paints tokens start (trimBreak line) highlights) {screen : Screen}
    (ready : screen.pen.UprightOn theme.background) :
    ∃ cells pen, pen.UprightOn theme.background ∧
      screen.performAll (view.lineContent theme highlights line) = screen.stamp cells pen ∧
      ShowsLine theme tokens start (trimBreak line) view.textWidth cells := by
  obtain ⟨pen, upright, printed⟩ := performAll_paintRow theme
    (Highlight.segments highlights (trimBreak line)) view.textWidth ready
  have fills : ∀ (cells : List Cell) (room : Nat), (screen.stamp cells pen).performAll
      [.background theme.background, .print (List.replicate room ' ')] =
        screen.stamp (cells ++ List.replicate room ⟨' ', pen⟩) pen := by
    intro cells room
    have chosen : (screen.stamp cells pen).pen.background = some theme.background :=
      upright.background
    rw [Screen.performAll_cons, Screen.perform_background chosen, Screen.performAll_cons,
      Screen.performAll_nil, Screen.perform, List.map_replicate, Screen.stamp_stamp]
    rfl
  rw [lineContent, Screen.performAll_append, printed, fills, paintRow_room,
    paints.tagged_segments, length_tag]
  exact ⟨_, pen, upright, rfl, showsLine_painted paints view.textWidth upright⟩

def gutterCells (view : View) (theme : Theme) (editor : Editor) (line : Nat) : List Cell :=
  let color := if line = editor.cursor.line then theme.activeLineNumber else theme.lineNumber
  if view.lineNumbers then
    (gutterText (line + 1)).map (⟨·, .ofStyle (.ofColor color) theme.background⟩)
  else []

def emptyCells (view : View) (theme : Theme) : List Cell :=
  (if view.lineNumbers then "  ~ ".toList else "~".toList).map
    (⟨·, .ofStyle (.ofColor theme.lineNumber) theme.background⟩)

/-- What the cells of a row show: its line behind the gutter, or that there is no line. -/
structure ShowsRow (view : View) (theme : Theme) (editor : Editor) (row : Nat)
    (cells : List Cell) : Prop where
  line : ∀ line, editor.buffer.line? (row + editor.scroll) = some line → ∃ content,
    cells = view.gutterCells theme editor (row + editor.scroll) ++ content ∧
    ShowsLine theme (scan editor.buffer.text)
      (byteLength ((lines editor.buffer.text).take (row + editor.scroll)).flatten)
      (trimBreak line) view.textWidth content
  behind : editor.buffer.line? (row + editor.scroll) = none → cells = view.emptyCells theme

theorem performAll_gutter (view : View) (theme : Theme) (editor : Editor) (line : Nat)
    {screen : Screen} (ready : screen.pen.UprightOn theme.background) :
    ∃ pen : Pen, pen.UprightOn theme.background ∧
      screen.performAll (view.gutter theme editor line) =
        screen.stamp (view.gutterCells theme editor line) pen := by
  obtain ⟨row, column, ⟨foreground, background, bold, italic⟩, marks⟩ := screen
  obtain ⟨⟨rfl, rfl⟩, rfl⟩ := ready
  unfold gutter gutterCells
  split
  · exact ⟨_, ⟨⟨rfl, rfl⟩, rfl⟩, rfl⟩
  · exact ⟨_, ⟨⟨rfl, rfl⟩, rfl⟩, (Screen.stamp_nil _).symm⟩

theorem performAll_empty (view : View) (theme : Theme) {screen : Screen}
    (ready : screen.pen.UprightOn theme.background) :
    ∃ pen : Pen, pen.UprightOn theme.background ∧
      screen.performAll [.foreground theme.lineNumber,
          .print (if view.lineNumbers then "  ~ ".toList else "~".toList), .clearToLineEnd] =
        screen.stamp (view.emptyCells theme) pen := by
  obtain ⟨row, column, ⟨foreground, background, bold, italic⟩, marks⟩ := screen
  obtain ⟨⟨rfl, rfl⟩, rfl⟩ := ready
  exact ⟨_, ⟨⟨rfl, rfl⟩, rfl⟩, rfl⟩

/-- One row: whatever color the row before it was left in, it shows what it has to show, and the
pen behind it is upright again. -/
theorem performAll_row (view : View) (theme : Theme) {editor : Editor} (fresh : editor.Fresh)
    (row : Nat) {screen : Screen} (upright : screen.pen.Upright) :
    ∃ cells pen, pen.Upright ∧
      screen.performAll (view.row theme editor (lines editor.buffer.text) row) =
        { screen with row, column := 0 }.stamp cells pen ∧
      view.ShowsRow theme editor row cells := by
  let start : Screen :=
    { screen with
      row := row
      column := 0
      pen := { screen.pen with background := some theme.background } }
  have opened : screen.performAll [.moveTo 0 row, .background theme.background] = start := rfl
  have ready : start.pen.UprightOn theme.background := ⟨⟨upright.bold, upright.italic⟩, rfl⟩
  rw [View.row, Screen.performAll_append, opened]
  cases present : (lines editor.buffer.text)[row + editor.scroll]? with
  | none =>
      obtain ⟨pen, penUpright, printed⟩ := performAll_empty view theme ready
      refine ⟨view.emptyCells theme, pen, penUpright.toUpright, printed, ?_, fun _ => rfl⟩
      intro line found
      rw [Buffer.line?, present] at found
      cases found
  | some line =>
      obtain ⟨highlights, painted, paints⟩ := exists_paints present
      obtain ⟨middle, middleReady, numbered⟩ :=
        performAll_gutter view theme editor (row + editor.scroll) ready
      have stampReady : (start.stamp (view.gutterCells theme editor (row + editor.scroll))
          middle).pen.UprightOn theme.background := middleReady
      obtain ⟨content, pen, penUpright, printed, shows⟩ :=
        performAll_lineContent view theme paints stampReady
      refine ⟨view.gutterCells theme editor (row + editor.scroll) ++ content, pen,
        penUpright.toUpright, ?_, ?_, ?_⟩
      · dsimp only
        rw [Screen.performAll_append, numbered, fresh, painted, Option.getD_some, printed,
          Screen.stamp_stamp]
        rfl
      · intro other found
        rw [Buffer.line?, present] at found
        obtain rfl := Option.some.inj found
        exact ⟨content, rfl, shows⟩
      · intro none
        rw [Buffer.line?, present] at none
        cases none

/-- What a screen shows after so many rows: one row of the surface on each of them and nothing
elsewhere, with an upright pen behind. -/
structure ShowsRows (view : View) (theme : Theme) (editor : Editor) (count : Nat)
    (screen : Screen) : Prop where
  pen : screen.pen.Upright
  inside : ∀ mark ∈ screen.marks, mark.row < count
  rows : ∀ row < count, ∃ cells, screen.onRow row = placed row 0 cells ∧
    view.ShowsRow theme editor row cells

/-- The next row is printed on a row of its own. -/
theorem ShowsRows.succ {view : View} {theme : Theme} {editor : Editor} (fresh : editor.Fresh)
    {count : Nat} {screen : Screen} (shows : view.ShowsRows theme editor count screen) :
    view.ShowsRows theme editor (count + 1)
      (screen.performAll (view.row theme editor (lines editor.buffer.text) count)) := by
  obtain ⟨cells, pen, upright, printed, shown⟩ := performAll_row view theme fresh count shows.pen
  rw [printed]
  constructor
  case pen => exact upright
  case inside =>
    intro mark member
    rcases List.mem_append.mp member with earlier | new
    · exact Nat.lt_succ_of_lt (shows.inside mark earlier)
    · rw [row_of_mem_placed new]
      exact Nat.lt_succ_self count
  case rows =>
    intro row bound
    -- Nothing was on the new row before, and nothing new is on the others.
    rw [Screen.onRow_stamp]
    by_cases last : count = row
    · have untouched : screen.onRow row = [] := by
        apply Screen.onRow_eq_nil
        intro mark member
        have above := shows.inside mark member
        omega
      refine ⟨cells, ?_, last ▸ shown⟩
      rw [if_pos last]
      show screen.onRow row ++ placed row 0 cells = placed row 0 cells
      rw [untouched, List.nil_append]
    · obtain ⟨earlier, found, earlierShown⟩ := shows.rows row (by omega)
      refine ⟨earlier, ?_, earlierShown⟩
      rw [if_neg last, List.append_nil]
      exact found

/-- All rows, one after another. -/
theorem showsRows_rows (view : View) (theme : Theme) {editor : Editor} (fresh : editor.Fresh)
    {pen : Pen} (upright : pen.Upright) :
    view.ShowsRows theme editor view.textHeight
      ((Screen.blank pen).performAll (view.rows theme editor)) := by
  unfold View.rows
  induction view.textHeight with
  | zero =>
      constructor
      case pen => exact upright
      case inside => simp [Screen.blank]
      case rows =>
        intro row bound
        omega
  | succ count ih =>
      rw [List.range_succ, List.flatMap_append, List.flatMap_singleton, Screen.performAll_append]
      exact ih.succ fresh

section Clean

theorem clean_styled {theme : Theme} {style : Style} {text : Text} (clean : '\x1b' ∉ text) :
    Clean (styled theme style text) := by
  unfold styled
  split <;> simpa [clean_select, Command.printed] using clean

theorem clean_paintRow {theme : Theme} {parts : List Fragment}
    (clean : ∀ part ∈ parts, '\x1b' ∉ part.text) (room : Nat) :
    Clean (paintRow theme room parts).1 := by
  induction parts generalizing room with
  | nil => exact clean_nil
  | cons part rest ih =>
      obtain ⟨first, others⟩ := List.forall_mem_cons.mp clean
      rw [paintRow]
      split
      · exact clean_nil
      · rw [clean_append]
        refine ⟨clean_styled ?_, ih others _⟩
        intro member
        exact first (List.mem_of_mem_take member)

/-- Nothing is in the pieces of a painted line that is not in the line. -/
theorem mem_of_mem_segments {tokens : List Token} {start : Nat} {text : Text}
    {highlights : List Highlight} (paints : Paints tokens start text highlights)
    {part : Fragment} (member : part ∈ Highlight.segments highlights text) {c : Char}
    (inside : c ∈ part.text) : c ∈ text := by
  have tagged : (c, part.category) ∈ Fragment.tagged (Highlight.segments highlights text) :=
    List.mem_flatMap.mpr ⟨part, member, List.mem_map.mpr ⟨c, inside, rfl⟩⟩
  rw [paints.tagged_segments] at tagged
  have listed := List.mem_map_of_mem (f := Prod.fst) tagged
  rwa [map_fst_tag] at listed

theorem clean_gutterText (number : Nat) : '\x1b' ∉ gutterText number := by
  intro member
  simp only [gutterText, List.mem_append, List.mem_replicate, List.mem_singleton] at member
  rcases member with (⟨_, space⟩ | digit) | space
  · exact absurd space (by decide)
  · exact absurd (Nat.isDigit_of_mem_toDigits (by decide) (by decide) digit) (by decide)
  · exact absurd space (by decide)

theorem clean_gutter (view : View) (theme : Theme) (editor : Editor) (line : Nat) :
    Clean (view.gutter theme editor line) := by
  unfold gutter
  split
  · simp [Command.printed, clean_gutterText]
  · exact clean_nil

theorem clean_lineContent (view : View) (theme : Theme) {tokens : List Token} {start : Nat}
    {line : Text} {highlights : List Highlight}
    (paints : Paints tokens start (trimBreak line) highlights)
    (clean : '\x1b' ∉ trimBreak line) : Clean (view.lineContent theme highlights line) := by
  have parts : ∀ part ∈ Highlight.segments highlights (trimBreak line), '\x1b' ∉ part.text := by
    intro part member inside
    exact clean (mem_of_mem_segments paints member inside)
  rw [lineContent, clean_append]
  refine ⟨clean_paintRow parts view.textWidth, ?_⟩
  simp [Command.printed]

theorem clean_row (view : View) (theme : Theme) {editor : Editor} (fresh : editor.Fresh)
    (clean : '\x1b' ∉ editor.buffer.text) (row : Nat) :
    Clean (view.row theme editor (lines editor.buffer.text) row) := by
  rw [View.row, clean_append]
  refine ⟨by simp [Command.printed], ?_⟩
  cases present : (lines editor.buffer.text)[row + editor.scroll]? with
  | none => cases numbered : view.lineNumbers <;> simp [Command.printed]
  | some line =>
      obtain ⟨back, whole⟩ := exists_split_of_line present
      obtain ⟨highlights, painted, paints⟩ := exists_paints present
      have cleanLine : '\x1b' ∉ trimBreak line := by
        intro member
        apply clean
        rw [whole]
        simp [member]
      dsimp only
      rw [clean_append, fresh, painted, Option.getD_some]
      exact ⟨clean_gutter view theme editor _, clean_lineContent view theme paints cleanLine⟩

/-- No sequence begins in the rows of a text in which none begins. -/
theorem clean_rows (view : View) (theme : Theme) {editor : Editor} (fresh : editor.Fresh)
    (clean : '\x1b' ∉ editor.buffer.text) : Clean (view.rows theme editor) := by
  intro command member
  obtain ⟨row, _, inRow⟩ := List.mem_flatMap.mp member
  exact clean_row view theme fresh clean row command inRow

end Clean

/-- Whatever has been done to a surface, as long as no sequence begins in its text: a terminal that
reads its rows shows each line that a row stands for behind the gutter of the line, cut off or
filled up at the edge, and every character in the style of its token; no style is left over for the
padding or for the next row. A surface that has a line to show can be drawn. -/
theorem rows_show_lines (disk : Disk) (buffer : Buffer) (tabWidth : Nat) {acts : List Act}
    {written : Disk} {editor : Editor}
    (reached : (Editor.ofBuffer buffer tabWidth).actAll? disk acts = some (written, editor))
    (clean : '\x1b' ∉ editor.buffer.text) (theme : Theme) (view : View) {pen : Pen}
    (upright : pen.Upright) :
    (editor.scroll < editor.buffer.lineCount → view.passesLastNumber editor = false) ∧
      ∃ screen,
        Reader.read ⟨.text, .blank pen⟩ (encode (view.rows theme editor)) = ⟨.text, screen⟩ ∧
          view.ShowsRows theme editor view.textHeight screen := by
  have first : (Editor.ofBuffer buffer tabWidth).Fresh := rfl
  have fresh : editor.Fresh := Editor.actAll?_fresh first reached
  constructor
  · intro visible
    have shown : ¬ editor.buffer.lineCount ≤ editor.scroll := by omega
    simp [passesLastNumber, shown]
  · exact ⟨_, Reader.read_encode _ (clean_rows view theme fresh clean),
      showsRows_rows view theme fresh upright⟩

/-- A letter typed before a comment, on a small screen with line numbers. -/
theorem rows_show_lines_comment :
    ∃ written editor,
      (Editor.ofBuffer (Buffer.ofText ['#', 'a']) 2).actAll? Disk.empty
        [.answer (.press (.char 'g')), .scroll 1] = some (written, editor) ∧
      '\x1b' ∉ editor.buffer.text ∧
      ∃ screen,
        Reader.read ⟨.text, .blank .usual⟩ (encode ((View.mk 6 3 true).rows Theme.nord editor)) =
            ⟨.text, screen⟩ ∧
          (View.mk 6 3 true).ShowsRows Theme.nord editor 2 screen := by
  let editor : Editor :=
    { Editor.ofBuffer ⟨['g', '#', 'a'], none, true⟩ 2 with cursor := ⟨0, 1⟩ }
  have reached : (Editor.ofBuffer (Buffer.ofText ['#', 'a']) 2).actAll? Disk.empty
      [.answer (.press (.char 'g')), .scroll 1] = some (Disk.empty, editor) := rfl
  have clean : '\x1b' ∉ editor.buffer.text := by decide
  refine ⟨Disk.empty, editor, reached, clean, ?_⟩
  exact (rows_show_lines Disk.empty _ 2 reached clean Theme.nord ⟨6, 3, true⟩ ⟨rfl, rfl⟩).2

end View

end Terminal

end Dabara
