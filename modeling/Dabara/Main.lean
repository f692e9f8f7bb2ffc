import Dabara.CommandLine.Session
import Dabara.Terminal.Input

set_option autoImplicit false

namespace Dabara.CommandLine

/-- What the system says where it refuses something. -/
def denialOf : IO.Error → Denial
  | .permissionDenied _ code details | .resourceExhausted _ code details
  | .inappropriateType _ code details | .noFileOrDirectory _ code details
  | .invalidArgument _ code details | .interrupted _ code details | .resourceBusy code details
  | .unsupportedOperation code details | .hardwareFault code details | .otherError code details =>
      ⟨details, code.toNat⟩
  | error => ⟨toString error, 0⟩

/-- Notes what stands at a path. -/
def observe (disk : Disk) (path : String) : IO Disk := do
  try
    let bytes ← IO.FS.readBinFile path
    pure (disk.add path (.file bytes))
  catch
    | .inappropriateType .. => pure (disk.add path .directory)
    | .noFileOrDirectory .. => pure disk
    | error =>
        let reading := fun other =>
          if other = path then some (denialOf error) else disk.denials.reading other
        pure { disk with denials := { disk.denials with reading } }

/-- Paths of the directories that lead to a path, and the path itself. -/
def leadingPaths (path : String) : List String :=
  (List.range (path.length + 1)).filterMap fun count =>
    let rest := path.toList.drop count
    if rest = [] ∨ rest.head? = some '/' then some (String.ofList (path.toList.take count))
    else none

def observeAll (usualConfig : Option String) (invocation : Invocation) : IO Disk :=
  let paths := usualConfig.toList ++ invocation.config.toList ++
    (invocation.task.file?.map leadingPaths).getD []
  (paths.filter (· ≠ "")).foldlM observe Disk.empty

/-- A side of the terminal, from the environment. -/
def side (name : String) (otherwise : UInt16) : IO UInt16 := do
  match (← IO.getEnv name).bind String.toNat? with
  | some size => pure size.toUInt16
  | none => pure otherwise

def send (commands : List Terminal.Command) : IO Unit := do
  let output ← IO.getStdout
  output.putStr (String.ofList (Terminal.encode commands))
  output.flush

/-- Writes the file that an event is about to save, and notes whether the system refused it. -/
def keep (session : Session) (event : Event) : IO Session :=
  match session.editor.buffer.path with
  | none => pure session
  | some path =>
      if event.saves && session.editor.buffer.dirty then do
        let refused ← try
          IO.FS.writeBinFile path (encodeText session.editor.buffer.text)
          pure none
        catch error => pure (some (denialOf error))
        let denials := { session.disk.denials with writing := fun _ => refused }
        pure { session with disk := { session.disk with denials } }
      else pure session

/-- Answers events in turn as long as the surface is open. -/
def answerAll (session : Session) : List Event → IO (Option Session)
  | [] => pure (some session)
  | event :: rest => do
      let session ← keep session event
      match session.step? event with
      | none => pure none
      | some (after, commands) =>
          send commands
          if after.editor.running then answerAll after rest else pure (some after)

/-- Reads keys until the surface closes or there are no more. -/
partial def converse (session : Session) : IO UInt32 := do
  if session.editor.running then
    let bytes ← (← IO.getStdin).read 4096
    if bytes.isEmpty then pure 0
    else
      match ← answerAll session (Terminal.events ((decodeText bytes).getD [])) with
      | some after => converse after
      | none => pure 101
  else pure 0

def showSurface (disk : Disk) (opening : Opening) : IO UInt32 := do
  IO.print (String.ofList opening.written)
  let session := Session.start disk opening (← side "COLUMNS" 80) (← side "LINES" 24)
  match session.draw? with
  | none => pure 101
  | some (session, commands) =>
      send (Session.setup ++ commands)
      let code ← converse session
      send Session.teardown
      pure code

def conclude (outcome : Outcome) (setting : Option String) : IO UInt32 := do
  for warning in outcome.logged (.ofSetting setting) do
    IO.eprintln ("WARN " ++ warning)
  IO.print (String.ofList outcome.output)
  match outcome.report with
  | some report => IO.eprint report
  | none => pure ()
  pure outcome.code.toUInt32

end Dabara.CommandLine

open Dabara CommandLine in
def main (words : List String) : IO UInt32 := do
  let usualConfig := (← IO.getEnv "HOME").map (· ++ "/" ++ Config.usualPath)
  let world ← match readWords words with
    | .error _ => pure ⟨Disk.empty, ByteArray.empty, none⟩
    | .ok invocation => do
        let input ←
          if invocation.task.readsStandardInput then (← IO.getStdin).readBinToEnd
          else pure ByteArray.empty
        pure (World.mk (← observeAll usualConfig invocation) input usualConfig)
  match plan world words with
  | .finished outcome => conclude outcome (← IO.getEnv "DABARA_LOG")
  | .surface opening => showSurface world.disk opening
