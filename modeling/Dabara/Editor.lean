import Dabara.Buffer
import Dabara.Highlight

set_option autoImplicit false

namespace Dabara

/-- A position in characters. -/
structure Cursor where
  line : Nat
  column : Nat
  deriving DecidableEq

/-- The state of the editing surface. An operation gives `none` when the cursor lies outside the
text, which happens only after it has been put there, or when something would grow too great to be
counted. -/
structure Editor where
  buffer : Buffer
  cursor : Cursor
  highlights : List (List Highlight)
  running : Bool
  message : Option String
  scroll : Nat
  tabWidth : Nat
  deriving DecidableEq

namespace Editor

/-- The surface of a buffer, with the cursor at its start. -/
def ofBuffer (buffer : Buffer) (tabWidth : Nat) : Editor :=
  { buffer
    cursor := ⟨0, 0⟩
    highlights := Highlight.perLine buffer.text
    running := true
    message := none
    scroll := 0
    tabWidth }

def openFile (disk : Disk) (path : String) (tabWidth : Nat) : Except Failure Editor :=
  (Buffer.openFile disk path).map (ofBuffer · tabWidth)

/-- Classifies the text anew. -/
def refresh (editor : Editor) : Editor :=
  { editor with highlights := Highlight.perLine editor.buffer.text }

/-- Whether the line below the cursor, outside the text, has a number that cannot be counted. -/
def atLastNumber (editor : Editor) : Bool :=
  editor.buffer.lineCount ≤ editor.cursor.line && countLimit ≤ editor.cursor.line + 1

def lineInfo? (editor : Editor) : Option String :=
  if editor.atLastNumber then none
  else some ("Layi: " ++ toString (editor.cursor.line + 1))

/-- The scroll offset nearest to the old one at which the cursor is among `height` visible
lines. -/
def nearestScroll (line scroll height : Nat) : Nat :=
  let upper := if line < scroll then line else scroll
  if 0 < height ∧ upper + height ≤ line then line + 1 - height else upper

/-- Scrolls no farther than needed to have the cursor among `height` visible lines. -/
def adjustScroll? (editor : Editor) (height : Nat) : Option Editor :=
  let line := editor.cursor.line
  let upper := if line < editor.scroll then line else editor.scroll
  if 0 < height ∧ (countLimit ≤ upper + height ∨ upper + height ≤ line ∧ countLimit ≤ line + 1) then
    none
  else some { editor with scroll := nearestScroll line editor.scroll height }

def setMessage (editor : Editor) (message : String) : Editor :=
  { editor with message := some message }

def quit (editor : Editor) : Editor :=
  { editor with running := false }

/-- Writes the text to its file and tells how it went. -/
def save (disk : Disk) (editor : Editor) : Disk × Editor :=
  if editor.buffer.dirty then
    match editor.buffer.save disk with
    | .ok (written, buffer) =>
        (written, { editor with buffer }.setMessage ("An ajiye " ++ buffer.path.getD ""))
    | .error failure => (disk, editor.setMessage ("Kuskure: " ++ failure.message))
  else (disk, editor.setMessage "Babu canji")

def moveTo (editor : Editor) (line column : Nat) : Editor :=
  { editor with cursor := ⟨line, column⟩ }

/-- One character back, over a break to the end of the line before. -/
def left? (editor : Editor) : Option Editor :=
  if 0 < editor.cursor.column then
    some (editor.moveTo editor.cursor.line (editor.cursor.column - 1))
  else if 0 < editor.cursor.line then
    (editor.buffer.lineLength? (editor.cursor.line - 1)).map
      (editor.moveTo (editor.cursor.line - 1))
  else some editor

/-- One character on, over a break to the start of the next line. -/
def right? (editor : Editor) : Option Editor :=
  (editor.buffer.lineLength? editor.cursor.line).map fun length =>
    if editor.cursor.column < length then
      editor.moveTo editor.cursor.line (editor.cursor.column + 1)
    else if editor.cursor.line + 1 < editor.buffer.lineCount then
      editor.moveTo (editor.cursor.line + 1) 0
    else editor

/-- To a line, at the same column or at the end of a shorter line. -/
def toLine? (editor : Editor) (line : Nat) : Option Editor :=
  (editor.buffer.lineLength? line).map fun length =>
    editor.moveTo line (min editor.cursor.column length)

def up? (editor : Editor) : Option Editor :=
  editor.toLine? (editor.cursor.line - 1)

def down? (editor : Editor) : Option Editor :=
  if editor.atLastNumber then none
  else editor.toLine? (min (editor.cursor.line + 1) (editor.buffer.lineCount - 1))

def lineStart (editor : Editor) : Editor :=
  editor.moveTo editor.cursor.line 0

def lineEnd? (editor : Editor) : Option Editor :=
  (editor.buffer.lineLength? editor.cursor.line).map (editor.moveTo editor.cursor.line)

/-- Puts text at the cursor, which goes to the given position. -/
def insert? (editor : Editor) (added : Text) (line column : Nat) : Option Editor :=
  (editor.buffer.insert? editor.cursor.line editor.cursor.column added).map fun buffer =>
    ({ editor with buffer }.moveTo line column).refresh

/-- Types a character. The column counts on, whatever the character is. -/
def insertChar? (editor : Editor) (c : Char) : Option Editor :=
  editor.insert? [c] editor.cursor.line (editor.cursor.column + 1)

def insertNewline? (editor : Editor) : Option Editor :=
  editor.insert? ['\n'] (editor.cursor.line + 1) 0

def insertTab? (editor : Editor) : Option Editor :=
  if textLimit ≤ editor.tabWidth then none
  else
    editor.insert? (List.replicate editor.tabWidth ' ') editor.cursor.line
      (editor.cursor.column + editor.tabWidth)

/-- Length of the line before the cursor's, to which a deleted break joins it; zero on the first
line. -/
def joinColumn? (editor : Editor) : Option Nat :=
  if 0 < editor.cursor.line then editor.buffer.lineLength? (editor.cursor.line - 1) else some 0

/-- Takes out what is before the cursor. At the start of a line the cursor goes to where the line
before ended. -/
def deleteBackward? (editor : Editor) : Option Editor :=
  match editor.joinColumn?, editor.buffer.backspace? editor.cursor.line editor.cursor.column with
  | some length, some (true, buffer) =>
      let moved :=
        if 0 < editor.cursor.column then
          editor.moveTo editor.cursor.line (editor.cursor.column - 1)
        else editor.moveTo (editor.cursor.line - 1) length
      some { moved with buffer }.refresh
  | some _, some (false, _) => some editor
  | _, _ => none

/-- Takes out what is at the cursor. -/
def deleteForward? (editor : Editor) : Option Editor :=
  (editor.buffer.delete? editor.cursor.line editor.cursor.column).map fun buffer =>
    { editor with buffer }.refresh

end Editor

end Dabara
