import Dabara.Text.Bytes

set_option autoImplicit false

namespace Dabara

/-- Characters that end a line. A carriage return and a line feed behind it are one break. -/
def isLineBreak (c : Char) : Bool :=
  c == '\n' || c == '\r' || c == '\x0b' || c == '\x0c' || c == '\u0085' || c == '\u2028' ||
    c == '\u2029'

def extendFirst (c : Char) : List Text → List Text
  | [] => [[c]]
  | line :: rest => (c :: line) :: rest

/-- The lines of a text, each with the break that ends it: one line more than there are breaks. -/
def lines : Text → List Text
  | [] => [[]]
  | '\r' :: '\n' :: rest => ['\r', '\n'] :: lines rest
  | c :: rest => if isLineBreak c then [c] :: lines rest else extendFirst c (lines rest)

/-- Characters in the break that ends a line: two, one or none. -/
def breakLength (line : Text) : Nat :=
  match line.reverse with
  | '\n' :: '\r' :: _ => 2
  | c :: _ => if isLineBreak c then 1 else 0
  | [] => 0

/-- A line without the break that ends it: without the pair, or else without a last character that
is a break. -/
def trimBreak (line : Text) : Text :=
  match List.isSuffixOf? ['\r', '\n'] line with
  | some text => text
  | none =>
      match line.getLast? with
      | some c => if isLineBreak c then line.dropLast else line
      | none => line

/-- Offsets just behind each break of a text that begins at byte `offset`. The first half of a
pair ends nothing. -/
def breakStops (offset : Nat) : Text → List Nat
  | [] => []
  | c :: rest =>
      let next := offset + c.utf8Size
      if c = '\r' ∧ rest.head? = some '\n' then breakStops next rest
      else if isLineBreak c then next :: breakStops next rest
      else breakStops next rest

def lineStarts (source : Text) : List Nat :=
  0 :: breakStops 0 source

/-- Byte extent of a line: where it begins, where its text stops and where its break stops. -/
structure LineSpan where
  start : Nat
  textStop : Nat
  stop : Nat
  deriving DecidableEq

/-- Cuts `rest`, the text from the first of the given starts on, into lines. -/
def lineSpansFrom (rest : Text) : List Nat → List LineSpan
  | [] => []
  | [start] => [⟨start, start + byteLength (trimBreak rest), start + byteLength rest⟩]
  | start :: next :: starts =>
      ⟨start, start + byteLength (trimBreak (takeBytes (next - start) rest)), next⟩ ::
        lineSpansFrom (dropBytes (next - start) rest) (next :: starts)

def lineSpans (source : Text) : List LineSpan :=
  lineSpansFrom source (lineStarts source)

/-- How many lines begin at or before a byte, given where the lines begin. -/
def linesBegun (starts : List Nat) (offset : Nat) : Nat :=
  (starts.takeWhile (· ≤ offset)).length

def lineOf (starts : List Nat) (offset : Nat) : Nat :=
  linesBegun starts offset - 1

theorem flatten_extendFirst (c : Char) (parts : List Text) :
    (extendFirst c parts).flatten = c :: parts.flatten := by
  cases parts <;> simp [extendFirst]

theorem lines_flatten (text : Text) : (lines text).flatten = text := by
  fun_induction lines text <;> simp_all [flatten_extendFirst]

theorem lines_ne_nil (text : Text) : lines text ≠ [] := by
  fun_induction lines text with
  | case4 c rest _ _ ih => cases shape : lines rest <;> simp [extendFirst]
  | _ => simp

end Dabara
