import Dabara.Settings

set_option autoImplicit false

namespace Dabara

namespace Script

/-- What a script can ask of the highlighter, with inputs of the right kinds. -/
inductive Call
  | set (change : Setting)
  | getTheme
  | listThemes
  | print (text : String)
  deriving DecidableEq

@[reducible] def Call.Reply : Call → Type
  | .set _ => Unit
  | .getTheme => String
  | .listThemes => List String
  | .print _ => Unit

/-- What a script does, call by call: how it goes on depends on the replies. In between, the engine
that runs it may itself write to standard output. -/
inductive Process (α : Type)
  | done (result : α)
  | ask (call : Call) (next : call.Reply → Process α)
  | write (text : Text) (next : Process α)

namespace Process

variable {α β : Type}

def bind : Process α → (α → Process β) → Process β
  | .done result, next => next result
  | .ask call rest, next => .ask call fun reply => (rest reply).bind next
  | .write text rest, next => .write text (rest.bind next)

instance : Monad Process where
  pure := .done
  bind := bind

end Process

/-- How a script ends that could be begun. -/
inductive Ending
  | completed
  | failed
  deriving DecidableEq

/-- A script engine gives the process of a text, unless the text is malformed. Nothing more is known
of an engine: what is said of configurations holds whichever it is. -/
abbrev Engine := Text → Option (Process Ending)

end Script

namespace Settings

open Script (Call)

/-- What the highlighter does about a call, and its reply. The words of `print` go to the log. -/
def answer (settings : Settings) : (call : Call) → Settings × call.Reply
  | .set change => (settings.apply change, ())
  | .getTheme => (settings, settings.theme)
  | .listThemes => (settings, Theme.builtinNames)
  | .print _ => (settings, ())

end Settings

namespace Script

/-- What came of a process: the calls that it made, in order, what the engine wrote, and the
settings as they then are. -/
structure Run (α : Type) where
  calls : List Call
  written : Text
  settings : Settings
  result : α

def Process.run {α : Type} : Process α → Settings → Run α
  | .done result, settings => ⟨[], [], settings, result⟩
  | .ask call next, settings =>
      let answered := settings.answer call
      let later := (next answered.2).run answered.1
      { later with calls := call :: later.calls }
  | .write text next, settings =>
      let later := next.run settings
      { later with written := text ++ later.written }

end Script

end Dabara
