import Dabara.Editor

set_option autoImplicit false

namespace Dabara

inductive Key
  | char (c : Char)
  | enter
  | tab
  | backTab
  | backspace
  | delete
  | insert
  | left
  | right
  | up
  | down
  | home
  | lineEnd
  | pageUp
  | pageDown
  | escape
  | null
  | function (number : Nat)
  deriving DecidableEq

/-- Keys held down with another key. -/
structure Modifiers where
  control : Bool
  shift : Bool
  alt : Bool
  super : Bool
  deriving DecidableEq

def Modifiers.none : Modifiers :=
  ⟨false, false, false, false⟩

inductive KeyAction
  | pressed
  | repeated
  | released
  deriving DecidableEq

/-- A key, what is held down with it, and what happened to it. -/
structure KeyEvent where
  key : Key
  modifiers : Modifiers
  action : KeyAction
  deriving DecidableEq

/-- What the terminal reports. -/
inductive Event
  | key (event : KeyEvent)
  | focusGained
  | focusLost
  | paste (text : Text)
  | mouse
  | resize (width height : UInt16)
  deriving DecidableEq

def Event.press (key : Key) : Event :=
  .key ⟨key, .none, .pressed⟩

def Event.control (c : Char) : Event :=
  .key ⟨.char c, { Modifiers.none with control := true }, .pressed⟩

/-- Whether an event asks for the text to be saved. -/
def Event.saves : Event → Bool
  | .key event => event.action ≠ .released && event.modifiers.control && event.key = .char 's'
  | _ => false

namespace Editor

def press? (editor : Editor) : Key → Option Editor
  | .char c => editor.insertChar? c
  | .enter => editor.insertNewline?
  | .tab => editor.insertTab?
  | .backspace => editor.deleteBackward?
  | .delete => editor.deleteForward?
  | .left => editor.left?
  | .right => editor.right?
  | .up => editor.up?
  | .down => editor.down?
  | .home => some editor.lineStart
  | .lineEnd => editor.lineEnd?
  | _ => some editor

/-- What a key does with the control key held down: `q` and `c` close, `s` saves. -/
def control (disk : Disk) (editor : Editor) : Key → Disk × Editor
  | .char 'q' => (disk, editor.quit)
  | .char 'c' => (disk, editor.quit)
  | .char 's' => editor.save disk
  | _ => (disk, editor)

/-- Answers an event. Only keys going down matter, and each of them ends a message. -/
def handle? (disk : Disk) (editor : Editor) : Event → Option (Disk × Editor)
  | .key event =>
      if event.action = .released then some (disk, editor)
      else
        let quiet := { editor with message := none }
        if event.modifiers.control then some (quiet.control disk event.key)
        else (quiet.press? event.key).map (disk, ·)
  | _ => some (disk, editor)

end Editor

end Dabara
