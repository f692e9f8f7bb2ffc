import Dabara.CommandLine.Arguments
import Dabara.CommandLine.Log
import Dabara.Config
import Dabara.Editor
import Dabara.Markup.Page
import Dabara.Sample
import Dabara.Terminal.Paint
import Dabara.Token.Listing

set_option autoImplicit false

namespace Dabara.CommandLine

/-- What a command can see of the world: the disk, standard input and the script that is run when
none is named. -/
structure World where
  disk : Disk
  input : ByteArray
  usualConfig : Option String

/-- What a finished command leaves behind. The report tells of a failure. -/
structure Outcome where
  code : Nat
  output : Text
  warnings : List Warning
  report : Option String

/-- Why a command failed: what it was doing, and the reason if there is a deeper one. -/
structure Trouble where
  doing : String
  cause : Option Failure
  deriving DecidableEq

def Trouble.report (trouble : Trouble) : String :=
  "Error: " ++ trouble.doing ++ "\n" ++
    match trouble.cause with
    | some failure => "\nCaused by:\n    " ++ failure.message ++ "\n"
    | none => ""

/-- An editing surface to be shown, with its colors and settings, and what is written before. -/
structure Opening where
  written : Text
  editor : Editor
  theme : Theme
  settings : Settings

inductive Plan
  | finished (outcome : Outcome)
  | surface (opening : Opening)

/-- A plan with something written before all else. -/
def Plan.behind (written : Text) : Plan → Plan
  | .finished outcome => .finished { outcome with output := written ++ outcome.output }
  | .surface opening => .surface { opening with written := written ++ opening.written }

def version : String :=
  "0.1.0"

def versionText : String :=
  "dabara-hl " ++ version ++ "\n"

def helpText : String :=
  "Usage: dabara-hl [OPTIONS] <COMMAND>\n"

def configWarning (problem : Config.Problem) : Warning :=
  ⟨"dabara_hl", ["message"], String.ofList (Log.plainMessage problem.message.toList)⟩

/-- What came of the script of an invocation, if there is one. -/
def loadedFor (engine : Script.Engine) (world : World) (invocation : Invocation) : Config.Loaded :=
  let nothing : Config.Loaded := ⟨[], [], .usual, none⟩
  match invocation.config with
  | some path => Config.loadWith engine world.disk .usual (.file path)
  | none =>
      match world.usualConfig with
      | some path =>
          if world.disk.present path then Config.loadWith engine world.disk .usual (.file path)
          else nothing
      | none => nothing

/-- The settings of an invocation: those of its script, then those of its options. -/
def settingsOf (invocation : Invocation) (loaded : Config.Loaded) : Settings :=
  { loaded.settings with
    theme := invocation.theme.getD loaded.settings.theme
    classPrefix := invocation.classPrefix.getD loaded.settings.classPrefix }

/-- The theme of a name, with a warning if it is unknown. -/
def themeOf (name : String) : Theme × List Warning :=
  match Theme.builtin? name with
  | some theme => (theme, [])
  | none =>
      (.usual,
        [⟨"dabara_highlight::theme", ["message", "theme"],
          "unknown theme, using " ++ Theme.usual.name ++ " theme=" ++
            String.ofList (Quoted.quote name.toList)⟩])

/-- A warning about a file that is not named like a source. -/
def extensionWarning (path : String) : List Warning :=
  if Location.extension? path.toList = some "ha".toList then []
  else
    [⟨"dabara_hl", ["message", "path"], "Dabara sources normally end in .ha path=" ++ path⟩]

def inputWarnings (input : Input) : List Warning :=
  match input.sample, input.file with
  | none, some path => extensionWarning path
  | _, _ => []

def readInput (world : World) (input : Input) : Except Trouble Text :=
  match input.sample, input.file with
  | some name, _ =>
      match Sample.source? name with
      | some source => .ok source
      | none =>
          .error
            ⟨"unknown sample '" ++ name ++ "' (available: " ++ ", ".intercalate Sample.names ++ ")",
              none⟩
  | none, some path =>
      match world.disk.readText path with
      | .ok source => .ok source
      | .error failure => .error ⟨"reading " ++ path, some failure⟩
  | none, none =>
      match decodeText world.input with
      | some source => .ok source
      | none => .error ⟨"reading stdin", some .undecodableText⟩

def pageTitle (input : Input) : Text :=
  ((input.sample.or input.file).getD "Dabara").toList

def htmlOutput (settings : Settings) (theme : Theme) (input : Input) (page : Bool)
    (source : Text) : Text :=
  let classPrefix := settings.classPrefix.toList
  let markup := Markup.render classPrefix (fragments source)
  if page then Markup.page theme classPrefix (pageTitle input) markup else markup

def withInput (world : World) (warnings : List Warning) (input : Input) (output : Text → Text) :
    Plan :=
  let warnings := warnings ++ inputWarnings input
  match readInput world input with
  | .ok source => .finished ⟨0, output source, warnings, none⟩
  | .error trouble => .finished ⟨1, [], warnings, some trouble.report⟩

/-- Carries out an invocation in certain settings, with the warnings that there have been. -/
def perform (world : World) (invocation : Invocation) (settings : Settings)
    (warnings : List Warning) : Plan :=
  let chosen := themeOf settings.theme
  let theme := chosen.1
  let warnings := warnings ++ chosen.2
  match invocation.task with
  | .html input page => withInput world warnings input (htmlOutput settings theme input page)
  | .tokens input => withInput world warnings input fun source => Token.listing (scan source)
  | .ansi input =>
      withInput world warnings input fun source => Terminal.encode (Terminal.paint theme source)
  | .css => .finished ⟨0, theme.stylesheet settings.classPrefix.toList, warnings, none⟩
  | .samples =>
      .finished ⟨0, Sample.names.flatMap fun name => name.toList ++ ['\n'], warnings, none⟩
  | .edit none => .surface ⟨[], .ofBuffer .empty settings.tabWidth, theme, settings⟩
  | .edit (some path) =>
      match Editor.openFile world.disk path settings.tabWidth with
      | .ok editor => .surface ⟨[], editor, theme, settings⟩
      | .error failure =>
          let trouble : Trouble := ⟨failure.message, none⟩
          .finished ⟨1, [], [], some trouble.report⟩

def plan (world : World) (words : List String) (engine : Script.Engine := Script.engine) : Plan :=
  match readWords words with
  | .ok invocation =>
      let loaded := loadedFor engine world invocation
      let warnings := (loaded.problem.map configWarning).toList
      (perform world invocation (settingsOf invocation loaded) warnings).behind loaded.written
  | .error .version => .finished ⟨0, versionText.toList, [], none⟩
  | .error .help => .finished ⟨0, helpText.toList, [], none⟩
  | .error .misuse => .finished ⟨2, [], [], none⟩

def Outcome.logged (outcome : Outcome) (filter : Log.Filter) : List String :=
  (outcome.warnings.filter filter.admits).map Warning.text

end Dabara.CommandLine
