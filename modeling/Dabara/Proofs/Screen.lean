import Dabara.Terminal

set_option autoImplicit false

namespace Dabara.Terminal

/-- What a terminal prints with. A color that was never selected is the terminal's own. -/
structure Pen where
  foreground : Option Color
  background : Option Color
  bold : Bool
  italic : Bool
  deriving DecidableEq

namespace Pen

def usual : Pen :=
  ⟨none, none, false, false⟩

def ofStyle (style : Style) (background : Color) : Pen :=
  ⟨some style.foreground, some background, style.bold, style.italic⟩

/-- What the numbers of a style sequence select, from the first to the last. -/
def select (pen : Pen) : List Nat → Pen
  | [] => pen
  | 38 :: 2 :: red :: green :: blue :: rest =>
      { pen with foreground := some ⟨red.toUInt8, green.toUInt8, blue.toUInt8⟩ }.select rest
  | 48 :: 2 :: red :: green :: blue :: rest =>
      { pen with background := some ⟨red.toUInt8, green.toUInt8, blue.toUInt8⟩ }.select rest
  | 0 :: rest => usual.select rest
  | 1 :: rest => { pen with bold := true }.select rest
  | 3 :: rest => { pen with italic := true }.select rest
  | _ :: rest => pen.select rest

end Pen

structure Cell where
  char : Char
  pen : Pen
  deriving DecidableEq

/-- A cell and where it is on the screen. -/
structure Placed where
  row : Nat
  column : Nat
  cell : Cell
  deriving DecidableEq

def placed (row column : Nat) : List Cell → List Placed
  | [] => []
  | cell :: rest => ⟨row, column, cell⟩ :: placed row (column + 1) rest

theorem placed_append (row column : Nat) (first second : List Cell) :
    placed row column (first ++ second) =
      placed row column first ++ placed row (column + first.length) second := by
  induction first generalizing column with
  | nil => rfl
  | cons cell rest ih => simp [placed, ih, Nat.add_assoc, Nat.add_comm 1]

theorem row_of_mem_placed {row column : Nat} {cells : List Cell} {mark : Placed}
    (member : mark ∈ placed row column cells) : mark.row = row := by
  induction cells generalizing column with
  | nil => cases member
  | cons cell rest ih =>
      rcases List.mem_cons.mp member with rfl | later
      · rfl
      · exact ih later

theorem getElem?_placed (row column : Nat) (cells : List Cell) (index : Nat) :
    (placed row column cells)[index]? = cells[index]?.map (Placed.mk row (column + index)) := by
  induction cells generalizing column index with
  | nil => rfl
  | cons cell rest ih =>
      cases index with
      | zero => rfl
      | succ index =>
          rw [placed, List.getElem?_cons_succ, List.getElem?_cons_succ, ih,
            show column + 1 + index = column + (index + 1) by omega]

theorem length_placed (row column : Nat) (cells : List Cell) :
    (placed row column cells).length = cells.length := by
  induction cells generalizing column with
  | nil => rfl
  | cons cell rest ih => rw [placed, List.length_cons, ih, List.length_cons]

/-- A screen: where the next character goes, the pen, and what has been printed so far. -/
structure Screen where
  row : Nat
  column : Nat
  pen : Pen
  marks : List Placed
  deriving DecidableEq

namespace Screen

/-- An untouched screen with a given pen. -/
def blank (pen : Pen) : Screen :=
  ⟨0, 0, pen, []⟩

/-- Puts cells side by side where the next character goes, and then takes up a pen. -/
def stamp (screen : Screen) (cells : List Cell) (pen : Pen) : Screen :=
  { screen with
    column := screen.column + cells.length
    pen
    marks := screen.marks ++ placed screen.row screen.column cells }

def onRow (screen : Screen) (row : Nat) : List Placed :=
  screen.marks.filter (·.row = row)

@[simp] theorem marks_stamp (screen : Screen) (cells : List Cell) (pen : Pen) :
    (screen.stamp cells pen).marks =
      screen.marks ++ placed screen.row screen.column cells := rfl

theorem stamp_nil (screen : Screen) : screen.stamp [] screen.pen = screen := by
  simp [stamp, placed]

theorem stamp_stamp (screen : Screen) (first second : List Cell) (pen last : Pen) :
    (screen.stamp first pen).stamp second last = screen.stamp (first ++ second) last := by
  simp [stamp, placed_append, Nat.add_assoc]

/-- Cells are printed on one row. -/
theorem onRow_stamp (screen : Screen) (cells : List Cell) (pen : Pen) (row : Nat) :
    (screen.stamp cells pen).onRow row =
      screen.onRow row ++ if screen.row = row then placed row screen.column cells else [] := by
  rw [onRow, marks_stamp, List.filter_append, onRow]
  congr 1
  split
  · next same =>
      rw [same, List.filter_eq_self]
      intro mark member
      rw [row_of_mem_placed member, decide_eq_true rfl]
  · next other =>
      rw [List.filter_eq_nil_iff]
      intro mark member
      rwa [row_of_mem_placed member, decide_eq_true_eq]

theorem onRow_eq_nil {screen : Screen} {row : Nat}
    (elsewhere : ∀ mark ∈ screen.marks, mark.row ≠ row) : screen.onRow row = [] := by
  rw [onRow, List.filter_eq_nil_iff]
  intro mark member
  rw [decide_eq_true_eq]
  exact elsewhere mark member

/-- What a command does to a screen. The cells that it clears were never printed on. -/
def perform (screen : Screen) : Command → Screen
  | .print text => screen.stamp (text.map (⟨·, screen.pen⟩)) screen.pen
  | .moveTo column row => { screen with row, column }
  | .foreground color => { screen with pen := { screen.pen with foreground := some color } }
  | .background color => { screen with pen := { screen.pen with background := some color } }
  | .bold => { screen with pen := { screen.pen with bold := true } }
  | .italic => { screen with pen := { screen.pen with italic := true } }
  | .resetStyle => { screen with pen := .usual }
  | _ => screen

def performAll (screen : Screen) (commands : List Command) : Screen :=
  commands.foldl perform screen

@[simp] theorem performAll_nil (screen : Screen) : screen.performAll [] = screen := rfl

@[simp] theorem performAll_cons (screen : Screen) (command : Command) (rest : List Command) :
    screen.performAll (command :: rest) = (screen.perform command).performAll rest := rfl

@[simp] theorem performAll_append (screen : Screen) (first second : List Command) :
    screen.performAll (first ++ second) = (screen.performAll first).performAll second :=
  List.foldl_append

/-- A style that is selected is added to what the pen has. -/
theorem performAll_select (screen : Screen) (style : Style) :
    screen.performAll (select style) =
      { screen with
        pen := { screen.pen with
          foreground := some style.foreground
          bold := screen.pen.bold || style.bold
          italic := screen.pen.italic || style.italic } } := by
  obtain ⟨row, column, ⟨foreground, background, bold, italic⟩, marks⟩ := screen
  obtain ⟨color, styleBold, styleItalic⟩ := style
  cases styleBold <;> cases styleItalic <;>
    simp [select, perform]

end Screen

/-- How far a terminal is within a sequence: the numbers that are complete and the one that is
being read. -/
inductive Mode
  | text
  | escape
  | sequence (done : List Nat) (number : Nat)
  deriving DecidableEq

/-- A terminal that reads one character after another. -/
structure Reader where
  mode : Mode
  screen : Screen
  deriving DecidableEq

namespace Reader

/-- What a whole sequence does: `m` selects a style and `H` moves the cursor. -/
def obey (screen : Screen) (numbers : List Nat) (final : Char) : Screen :=
  if final = 'm' then { screen with pen := screen.pen.select numbers }
  else
    match final, numbers with
    | 'H', [row, column] => { screen with row := row - 1, column := column - 1 }
    | _, _ => screen

/-- What one character does. A sequence ends at its first letter. -/
def step (reader : Reader) (c : Char) : Reader :=
  match reader.mode with
  | .text =>
      if c = '\x1b' then ⟨.escape, reader.screen⟩
      else ⟨.text, reader.screen.stamp [⟨c, reader.screen.pen⟩] reader.screen.pen⟩
  | .escape => if c = '[' then ⟨.sequence [] 0, reader.screen⟩ else ⟨.text, reader.screen⟩
  | .sequence done number =>
      if c.isDigit then ⟨.sequence done (10 * number + (c.toNat - '0'.toNat)), reader.screen⟩
      else if c = ';' then ⟨.sequence (done ++ [number]) 0, reader.screen⟩
      else if c.isAlpha then ⟨.text, obey reader.screen (done ++ [number]) c⟩
      else reader

def read (reader : Reader) (text : Text) : Reader :=
  text.foldl step reader

@[simp] theorem read_nil (reader : Reader) : reader.read [] = reader := rfl

@[simp] theorem read_cons (reader : Reader) (c : Char) (rest : Text) :
    reader.read (c :: rest) = (reader.step c).read rest := rfl

@[simp] theorem read_append (reader : Reader) (first second : Text) :
    reader.read (first ++ second) = (reader.read first).read second :=
  List.foldl_append

/-- Text in which no sequence begins is printed as it is. -/
theorem read_text (screen : Screen) {text : Text} (clean : '\x1b' ∉ text) :
    read ⟨.text, screen⟩ text =
      ⟨.text, screen.stamp (text.map (⟨·, screen.pen⟩)) screen.pen⟩ := by
  induction text generalizing screen with
  | nil => rw [read_nil, List.map_nil, screen.stamp_nil]
  | cons c rest ih =>
      obtain ⟨other, later⟩ := not_or.mp (mt List.mem_cons.mpr clean)
      have first : step ⟨.text, screen⟩ c =
          ⟨.text, screen.stamp [⟨c, screen.pen⟩] screen.pen⟩ := if_neg (Ne.symm other)
      rw [read_cons, first, ih _ later, Screen.stamp_stamp]
      rfl

theorem read_digits (screen : Screen) (done : List Nat) {text : Text}
    (digits : ∀ c ∈ text, c.isDigit = true) (number : Nat) :
    read ⟨.sequence done number, screen⟩ text =
      ⟨.sequence done (Nat.ofDigitChars 10 text number), screen⟩ := by
  induction text generalizing number with
  | nil => rfl
  | cons c rest ih =>
      obtain ⟨digit, later⟩ := List.forall_mem_cons.mp digits
      have first : step ⟨.sequence done number, screen⟩ c =
          ⟨.sequence done (10 * number + (c.toNat - '0'.toNat)), screen⟩ := if_pos digit
      rw [read_cons, first, ih later, Nat.ofDigitChars_cons]

/-- The digits of a number are read as that number. -/
theorem read_decimal (screen : Screen) (done : List Nat) (number : Nat) :
    read ⟨.sequence done 0, screen⟩ (decimal number) = ⟨.sequence done number, screen⟩ := by
  have digits : ∀ c ∈ decimal number, c.isDigit = true := by
    intro c member
    exact Nat.isDigit_of_mem_toDigits (by decide) (by decide) member
  rw [read_digits screen done digits, decimal, Nat.ofDigitChars_ten_toDigits]

theorem read_separator (screen : Screen) (done : List Nat) (number : Nat) (rest : Text) :
    read ⟨.sequence done number, screen⟩ (';' :: rest) =
      read ⟨.sequence (done ++ [number]) 0, screen⟩ rest := rfl

/-- The parts of a color end the sequence that they are in. -/
theorem read_colorParts (screen : Screen) (done : List Nat) (color : Color) :
    read ⟨.sequence done 0, screen⟩ (colorParts color) =
      ⟨.text, obey screen
        (done ++ [color.red.toNat, color.green.toNat, color.blue.toNat]) 'm'⟩ := by
  have last : ∀ numbers number, read ⟨.sequence numbers number, screen⟩ ['m'] =
      ⟨.text, obey screen (numbers ++ [number]) 'm'⟩ := fun _ _ => rfl
  simp only [colorParts, read_append, read_decimal, read_separator, last, List.append_assoc,
    List.cons_append, List.nil_append]

/-- A selected color is the one that was written. -/
theorem read_foreground (screen : Screen) (color : Color) :
    read ⟨.text, screen⟩ (Command.foreground color).encode =
      ⟨.text, screen.perform (.foreground color)⟩ := by
  have start : read ⟨.text, screen⟩ (Command.foreground color).encode =
      read ⟨.sequence [38, 2] 0, screen⟩ (colorParts color) := rfl
  rw [start, read_colorParts]
  simp [obey, Pen.select, Screen.perform]

theorem read_background (screen : Screen) (color : Color) :
    read ⟨.text, screen⟩ (Command.background color).encode =
      ⟨.text, screen.perform (.background color)⟩ := by
  have start : read ⟨.text, screen⟩ (Command.background color).encode =
      read ⟨.sequence [48, 2] 0, screen⟩ (colorParts color) := rfl
  rw [start, read_colorParts]
  simp [obey, Pen.select, Screen.perform]

theorem read_moveTo (screen : Screen) (column row : Nat) :
    read ⟨.text, screen⟩ (Command.moveTo column row).encode =
      ⟨.text, screen.perform (.moveTo column row)⟩ := by
  have start : read ⟨.text, screen⟩ (Command.moveTo column row).encode =
      read ⟨.sequence [] 0, screen⟩
        (decimal (row + 1) ++ ';' :: decimal (column + 1) ++ ['H']) := rfl
  have last : read ⟨.sequence [row + 1] (column + 1), screen⟩ ['H'] =
      ⟨.text, obey screen [row + 1, column + 1] 'H'⟩ := rfl
  rw [start, read_append, read_append, read_decimal, read_separator, read_decimal]
  exact last

end Reader

def Command.printed : Command → Text
  | .print text => text
  | _ => []

/-- What is printed as it stands, because no sequence begins in it. -/
def Clean (commands : List Command) : Prop :=
  ∀ command ∈ commands, '\x1b' ∉ command.printed

@[simp] theorem clean_nil : Clean [] := by
  intro command member
  cases member

@[simp] theorem clean_cons (command : Command) (rest : List Command) :
    Clean (command :: rest) ↔ '\x1b' ∉ command.printed ∧ Clean rest := by
  simp [Clean]

@[simp] theorem clean_append (first second : List Command) :
    Clean (first ++ second) ↔ Clean first ∧ Clean second := by
  simp only [Clean, List.mem_append, or_imp, forall_and]

theorem clean_select (style : Style) : Clean (select style) := by
  obtain ⟨color, bold, italic⟩ := style
  cases bold <;> cases italic <;> simp [select, Command.printed]

theorem Reader.read_command (screen : Screen) {command : Command}
    (clean : '\x1b' ∉ command.printed) :
    read ⟨.text, screen⟩ command.encode = ⟨.text, screen.perform command⟩ := by
  cases command with
  | print text => exact read_text screen clean
  | moveTo column row => exact read_moveTo screen column row
  | foreground color => exact read_foreground screen color
  | background color => exact read_background screen color
  | _ => rfl

/-- Reading what commands are written as does what they say. -/
theorem Reader.read_encode (screen : Screen) {commands : List Command} (clean : Clean commands) :
    read ⟨.text, screen⟩ (encode commands) = ⟨.text, screen.performAll commands⟩ := by
  induction commands generalizing screen with
  | nil => rfl
  | cons command rest ih =>
      rw [clean_cons] at clean
      rw [encode_cons, read_append, read_command screen clean.1, ih _ clean.2]
      rfl

example : Reader.read ⟨.text, .blank .usual⟩
    (encode [.moveTo 1 2, .italic, .foreground ⟨7, 0, 255⟩, .print ['a'], .resetStyle,
      .print ['b']]) =
      ⟨.text, 2, 3, .usual,
        [⟨2, 1, 'a', some ⟨7, 0, 255⟩, none, false, true⟩, ⟨2, 2, 'b', .usual⟩]⟩ := by
  decide

end Dabara.Terminal
