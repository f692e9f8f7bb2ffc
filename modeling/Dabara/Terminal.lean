import Dabara.Theme

set_option autoImplicit false

namespace Dabara.Terminal

/-- What a program asks of a terminal. Columns and rows count from zero. -/
inductive Command
  | print (text : Text)
  | moveTo (column row : Nat)
  | foreground (color : Color)
  | background (color : Color)
  | bold
  | italic
  | resetStyle
  | hideCursor
  | showCursor
  | barCursor
  | usualCursor
  | clearScreen
  | clearLine
  | clearToLineEnd
  | enterScreen
  | leaveScreen
  | wrapOff
  | wrapOn
  deriving DecidableEq

def decimal (number : Nat) : Text :=
  Nat.toDigits 10 number

/-- The start of every escape sequence. -/
def sequence (rest : Text) : Text :=
  '\x1b' :: '[' :: rest

/-- The three parts of a color, as they stand at the end of its sequence. -/
def colorParts (color : Color) : Text :=
  decimal color.red.toNat ++ ';' :: decimal color.green.toNat ++ ';' ::
    decimal color.blue.toNat ++ ['m']

namespace Command

def encode : Command → Text
  | print text => text
  | moveTo column row =>
      sequence (decimal (row + 1) ++ ';' :: decimal (column + 1) ++ ['H'])
  | foreground color => sequence ("38;2;".toList ++ colorParts color)
  | background color => sequence ("48;2;".toList ++ colorParts color)
  | bold => sequence "1m".toList
  | italic => sequence "3m".toList
  | resetStyle => sequence "0m".toList
  | hideCursor => sequence "?25l".toList
  | showCursor => sequence "?25h".toList
  | barCursor => sequence "5 q".toList
  | usualCursor => sequence "0 q".toList
  | clearScreen => sequence "2J".toList
  | clearLine => sequence "2K".toList
  | clearToLineEnd => sequence "K".toList
  | enterScreen => sequence "?1049h".toList
  | leaveScreen => sequence "?1049l".toList
  | wrapOff => sequence "?7l".toList
  | wrapOn => sequence "?7h".toList

end Command

def encode (commands : List Command) : Text :=
  commands.flatMap Command.encode

def select (style : Style) : List Command :=
  .foreground style.foreground ::
    ((if style.bold then [.bold] else []) ++ (if style.italic then [.italic] else []))

@[simp] theorem encode_nil : encode [] = [] := rfl

@[simp] theorem encode_cons (command : Command) (rest : List Command) :
    encode (command :: rest) = command.encode ++ encode rest := rfl

@[simp] theorem encode_append (first second : List Command) :
    encode (first ++ second) = encode first ++ encode second := by
  simp [encode]

end Dabara.Terminal
