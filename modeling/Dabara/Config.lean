import Dabara.Disk
import Dabara.Script.Machine

set_option autoImplicit false

namespace Dabara.Config

open Script (Call Ending Engine)

inductive Source
  | script (text : Text)
  | file (path : String)

/-- Why a script was not run to its end. -/
inductive Problem
  | unreadable (path : String) (failure : Failure)
  | malformed
  | failed
  deriving DecidableEq

def Problem.message : Problem → String
  | .unreadable path failure => "Failed to read config file " ++ path ++ ": " ++ failure.message
  | .malformed => "Config parse error"
  | .failed => "Config error"

/-- What came of a source: the calls that its script made, in order, what the engine wrote, the
settings afterwards and the problem it ran into. -/
structure Loaded where
  calls : List Call
  written : Text
  settings : Settings
  problem : Option Problem

/-- A source of which nothing could be run. -/
def Loaded.stopped (settings : Settings) (problem : Problem) : Loaded :=
  ⟨[], [], settings, some problem⟩

def problemOf : Ending → Option Problem
  | .completed => none
  | .failed => some .failed

def evaluate (engine : Engine) (settings : Settings) (text : Text) : Loaded :=
  match engine text with
  | none => .stopped settings .malformed
  | some process =>
      let run := process.run settings
      ⟨run.calls, run.written, run.settings, problemOf run.result⟩

def loadWith (engine : Engine) (disk : Disk) (settings : Settings) : Source → Loaded
  | .script text => evaluate engine settings text
  | .file path =>
      match disk.readText path with
      | .ok text => evaluate engine settings text
      | .error failure => .stopped settings (.unreadable path failure)

def load (disk : Disk) (settings : Settings) (source : Source) (engine : Engine := Script.engine) :
    Settings × Option Problem :=
  let loaded := loadWith engine disk settings source
  (loaded.settings, loaded.problem)

/-- The script that is run when none is named, if it exists. -/
def usualPath : String :=
  ".config/dabara/init.rhai"

end Dabara.Config
