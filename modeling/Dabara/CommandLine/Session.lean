import Dabara.CommandLine.Plan
import Dabara.Editor.Event
import Dabara.Terminal.View

set_option autoImplicit false

namespace Dabara.CommandLine

open Terminal (Command View)

/-- A surface that is being shown. -/
structure Session where
  disk : Disk
  editor : Editor
  view : View
  theme : Theme

namespace Session

/-- Commands before the first frame. -/
def setup : List Command :=
  [.enterScreen, .wrapOff, .hideCursor, .clearScreen]

def teardown : List Command :=
  [.usualCursor, .showCursor, .wrapOn, .leaveScreen]

def start (disk : Disk) (opening : Opening) (width height : UInt16) : Session where
  disk
  editor := opening.editor
  view := ⟨width, height, opening.settings.lineNumbers⟩
  theme := opening.theme

/-- Scrolls to the cursor and draws. -/
def draw? (session : Session) : Option (Session × List Command) :=
  match session.editor.adjustScroll? session.view.textHeight with
  | none => none
  | some editor => (session.view.frame? session.theme editor).map ({ session with editor }, ·)

/-- Answers an event. The size of the terminal is the session's own matter. -/
def answer? (session : Session) : Event → Option Session
  | .resize width height => some { session with view := session.view.resize width height }
  | event =>
      (session.editor.handle? session.disk event).map fun after =>
        { session with disk := after.1, editor := after.2 }

def step? (session : Session) (event : Event) : Option (Session × List Command) :=
  (session.answer? event).bind draw?

/-- What a session printed, what it left on the disk, and whether it ended well. -/
structure Transcript where
  frames : List Text
  disk : Disk
  sound : Bool

def play (session : Session) : List Event → Transcript
  | [] => ⟨[], session.disk, true⟩
  | event :: rest =>
      match session.step? event with
      | none => ⟨[], session.disk, false⟩
      | some (after, commands) =>
          if after.editor.running then
            let later := after.play rest
            { later with frames := Terminal.encode commands :: later.frames }
          else ⟨[Terminal.encode (commands ++ teardown)], after.disk, true⟩

/-- A whole session: the first frame, then one entry for each event. -/
def transcript (session : Session) (events : List Event) : Transcript :=
  match session.draw? with
  | none => ⟨[], session.disk, false⟩
  | some (after, commands) =>
      let later := after.play events
      { later with frames := Terminal.encode (setup ++ commands) :: later.frames }

end Session

end Dabara.CommandLine
