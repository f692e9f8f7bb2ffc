import Dabara.Editor.Event

set_option autoImplicit false

namespace Dabara.Terminal

/-- The key of an escape sequence, named by what stands behind `ESC [`. -/
def sequenceKeys : List (Text × Key) :=
  [("A".toList, .up), ("B".toList, .down), ("C".toList, .right), ("D".toList, .left),
    ("H".toList, .home), ("F".toList, .lineEnd), ("Z".toList, .backTab), ("1~".toList, .home),
    ("2~".toList, .insert), ("3~".toList, .delete), ("4~".toList, .lineEnd),
    ("5~".toList, .pageUp), ("6~".toList, .pageDown)]

/-- The character that the control key makes of another: its last five bits. -/
def controlled (c : Char) : Char :=
  Char.ofNat (c.toNat % 32)

/-- The event of a single character. Characters below the space stand for the control key and a
letter or a digit, but for the keys that have a character of their own. -/
def charEvent (c : Char) : Event :=
  if c = controlled 'm' then .press .enter
  else if c = controlled 'i' then .press .tab
  else if c = '\x7f' then .press .backspace
  else if c = controlled '[' then .press .escape
  else if c = controlled ' ' then .control ' '
  else if c.toNat < 27 then .control (Char.ofNat (c.toNat + 96))
  else if c.toNat < 32 then .control (Char.ofNat (c.toNat + 24))
  else .press (.char c)

/-- The events of `text`, the first `skip` characters of which belong to an event already found. -/
def eventsAfter : Nat → Text → List Event
  | _, [] => []
  | skip + 1, _ :: rest => eventsAfter skip rest
  | 0, c :: rest =>
      if c = controlled '[' then
        match rest with
        | '[' :: body =>
            match sequenceKeys.find? fun entry => entry.1.isPrefixOf body with
            | some entry => .press entry.2 :: eventsAfter (entry.1.length + 1) rest
            | none => charEvent c :: eventsAfter 0 rest
        | _ => charEvent c :: eventsAfter 0 rest
      else charEvent c :: eventsAfter 0 rest

def events (text : Text) : List Event :=
  eventsAfter 0 text

end Dabara.Terminal
