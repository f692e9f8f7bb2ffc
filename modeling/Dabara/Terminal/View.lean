import Dabara.Disk
import Dabara.Editor
import Dabara.Terminal

set_option autoImplicit false

namespace Dabara.Terminal

/-- The size of a terminal and whether lines are numbered. -/
structure View where
  width : UInt16
  height : UInt16
  lineNumbers : Bool
  deriving DecidableEq

/-- One more than the largest number the terminal can hold. -/
def cellLimit : Nat :=
  65536

namespace View

def gutterWidth (view : View) : Nat :=
  if view.lineNumbers then 4 else 0

def textWidth (view : View) : Nat :=
  view.width.toNat - view.gutterWidth

/-- Rows that are left for text beside the status line. -/
def textHeight (view : View) : Nat :=
  view.height.toNat - 1

def resize (view : View) (width height : UInt16) : View :=
  { view with width, height }

/-- A line number as the gutter shows it: at least three columns, numbers to the right, and a
space. -/
def gutterText (number : Nat) : Text :=
  let digits := decimal number
  List.replicate (3 - digits.length) ' ' ++ digits ++ [' ']

/-- Text in a style. The reset behind bold or italic text takes the background with it, so that is
selected again. -/
def styled (theme : Theme) (style : Style) (text : Text) : List Command :=
  select style ++ .print text ::
    (if style.bold || style.italic then [.resetStyle, .background theme.background] else [])

/-- Fragments cut off after `room` characters, and the room that is left behind them. -/
def paintRow (theme : Theme) (room : Nat) : List Fragment → List Command × Nat
  | [] => ([], room)
  | fragment :: rest =>
      if room = 0 then ([], 0)
      else
        let visible := fragment.text.take room
        let after := paintRow theme (room - visible.length) rest
        (styled theme (theme.styleFor fragment.category) visible ++ after.1, after.2)

def gutter (view : View) (theme : Theme) (editor : Editor) (line : Nat) : List Command :=
  if view.lineNumbers then
    [.foreground (if line = editor.cursor.line then theme.activeLineNumber else theme.lineNumber),
      .print (gutterText (line + 1))]
  else []

/-- The text of a line, filled with spaces to the edge. -/
def lineContent (view : View) (theme : Theme) (highlights : List Highlight) (text : Text) :
    List Command :=
  let painted := paintRow theme view.textWidth (Highlight.segments highlights (trimBreak text))
  painted.1 ++ [.background theme.background, .print (List.replicate painted.2 ' ')]

/-- One row of text, or the mark of a row behind the last line. -/
def row (view : View) (theme : Theme) (editor : Editor) (texts : List Text) (number : Nat) :
    List Command :=
  let line := number + editor.scroll
  [.moveTo 0 number, .background theme.background] ++
    match texts[line]? with
    | none =>
        [.foreground theme.lineNumber,
          .print (if view.lineNumbers then "  ~ ".toList else "~".toList), .clearToLineEnd]
    | some text =>
        view.gutter theme editor line ++
          view.lineContent theme (editor.highlights[line]?.getD []) text

/-- Whether a row shows a place behind the text that has no number. -/
def passesLastNumber (view : View) (editor : Editor) : Bool :=
  editor.buffer.lineCount ≤ editor.scroll && countLimit < view.textHeight + editor.scroll

def rows (view : View) (theme : Theme) (editor : Editor) : List Command :=
  let texts := lines editor.buffer.text
  (List.range view.textHeight).flatMap (view.row theme editor texts)

/-- The name of the file being edited, as the status shows it. -/
def shownName (editor : Editor) : Text :=
  ((editor.buffer.path.map String.toList).bind Location.fileName?).getD "[Babu suna]".toList

def statusLeft (editor : Editor) : Text :=
  ' ' :: shownName editor ++ (if editor.buffer.dirty then " [+]".toList else []) ++ [' ']

def statusRight? (editor : Editor) : Option Text :=
  editor.lineInfo?.map fun info => ' ' :: info.toList ++ [' ']

/-- The status: its left side, its right side and the room between them, cut off at the width. -/
def statusText? (editor : Editor) (width : Nat) : Option Text :=
  match statusRight? editor with
  | none => none
  | some right =>
      let left := statusLeft editor
      let room := width - (left.length + right.length)
      if textLimit ≤ room then none
      else some ((left ++ List.replicate room ' ' ++ right).take width)

/-- The status line, or the message in its place. -/
def statusLine? (view : View) (theme : Theme) (editor : Editor) : Option (List Command) :=
  let place := Command.moveTo 0 (view.height.toNat - 1)
  match editor.message with
  | some message =>
      some
        [place, .background theme.background, .foreground theme.warning, .clearLine,
          .print message.toList]
  | none =>
      (statusText? editor view.width.toNat).map fun status =>
        [place, .background theme.statusBackground, .foreground theme.statusForeground,
          .print status, .background theme.background]

/-- The column and row of the cursor. Its column and its distance from the first visible line are
cut to sixteen bits; after that, nothing may pass the last cell that the terminal can name. -/
def cursorCell? (view : View) (editor : Editor) : Option (Nat × Nat) :=
  let column := view.gutterWidth + editor.cursor.column % cellLimit
  let row := (editor.cursor.line - editor.scroll) % cellLimit
  if editor.scroll ≤ editor.cursor.line ∧ column + 1 < cellLimit ∧ row + 1 < cellLimit then
    some (column, row)
  else none

def frame? (view : View) (theme : Theme) (editor : Editor) : Option (List Command) :=
  if view.passesLastNumber editor then none
  else
    match view.cursorCell? editor, view.statusLine? theme editor with
    | some cell, some status =>
        some
          ([.hideCursor, .background theme.background] ++ view.rows theme editor ++ status ++
            [.moveTo cell.1 cell.2, .barCursor, .showCursor])
    | _, _ => none

end View

end Dabara.Terminal
