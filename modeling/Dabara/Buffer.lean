import Dabara.Disk
import Dabara.Text.Line

set_option autoImplicit false

namespace Dabara

/-- A text with the path it is kept under and whether it has changed since. Positions in it are a
line and a column, both counted in characters from zero; the column may point behind its line, so a
position stands for the index `line start + column`. An operation gives `none` when the line or the
index lies outside the text, or when the index is too great to be counted. -/
structure Buffer where
  text : Text
  path : Option String
  dirty : Bool
  deriving DecidableEq

namespace Buffer

/-- A buffer that belongs to no file. -/
def ofText (text : Text) : Buffer :=
  ⟨text, none, false⟩

def empty : Buffer :=
  ofText []

/-- The buffer of a file. A file that does not exist yet gives an empty text. -/
def openFile (disk : Disk) (path : String) : Except Failure Buffer :=
  match disk.read path with
  | .error .notFound => .ok ⟨[], some path, false⟩
  | .error failure => .error failure
  | .ok bytes =>
      match decodeText bytes with
      | some text => .ok ⟨text, some path, false⟩
      | none => .error .undecodableStream

/-- Writes a changed text to its file. Without a change nothing happens. -/
def save (disk : Disk) (buffer : Buffer) : Except Failure (Disk × Buffer) :=
  if buffer.dirty then
    match buffer.path with
    | none => .error .noPath
    | some path =>
        match disk.write path (encodeText buffer.text) with
        | .error failure => .error failure
        | .ok written => .ok (written, { buffer with dirty := false })
  else .ok (disk, buffer)

def lineCount (buffer : Buffer) : Nat :=
  (lines buffer.text).length

/-- A line with its break. -/
def line? (buffer : Buffer) (line : Nat) : Option Text :=
  (lines buffer.text)[line]?

/-- Characters in a line, its break left out. -/
def lineLength? (buffer : Buffer) (line : Nat) : Option Nat :=
  (buffer.line? line).map fun text => text.length - breakLength text

def lineLengths (buffer : Buffer) : List Nat :=
  (lines buffer.text).map fun text => text.length - breakLength text

/-- Index at which a line begins. The line behind the last one begins at the end of the text. -/
def lineStart? (buffer : Buffer) (line : Nat) : Option Nat :=
  if line ≤ buffer.lineCount then some ((lines buffer.text).take line).flatten.length
  else none

def insertAt (buffer : Buffer) (index : Nat) (added : Text) : Buffer :=
  { buffer with
    text := buffer.text.take index ++ added ++ buffer.text.drop index
    dirty := true }

def removeAt (buffer : Buffer) (index count : Nat) : Buffer :=
  { buffer with
    text := buffer.text.take index ++ buffer.text.drop (index + count)
    dirty := true }

def insert? (buffer : Buffer) (line column : Nat) (added : Text) : Option Buffer :=
  match buffer.lineStart? line with
  | none => none
  | some start =>
      if start + column ≤ buffer.text.length then some (buffer.insertAt (start + column) added)
      else none

/-- Takes out the character at a position; at the end of a line, its whole break. -/
def delete? (buffer : Buffer) (line column : Nat) : Option Buffer :=
  match buffer.lineStart? line, buffer.line? line with
  | some start, some text =>
      let count := if text.length - breakLength text ≤ column then breakLength text else 1
      if 0 < count ∧ start + column + count ≤ buffer.text.length then
        some (buffer.removeAt (start + column) count)
      else if text.length < column ∧ countLimit ≤ start + column + count then none
      else some buffer
  | _, _ => none

/-- Takes out the character before a position; at the start of a line, the whole break before it.
Tells whether there was anything before the position. -/
def backspace? (buffer : Buffer) (line column : Nat) : Option (Bool × Buffer) :=
  match buffer.lineStart? line with
  | none => none
  | some start =>
      let index := start + column
      if index = 0 then some (false, buffer)
      else
        let count := if column = 0 then (buffer.line? (line - 1)).map breakLength else some 1
        match count with
        | none => none
        | some count =>
            if index ≤ buffer.text.length then some (true, buffer.removeAt (index - count) count)
            else none

theorem getElem?_lineLengths (buffer : Buffer) (line : Nat) :
    buffer.lineLengths[line]? = buffer.lineLength? line := by
  simp [lineLengths, lineLength?, line?]

end Buffer

end Dabara
