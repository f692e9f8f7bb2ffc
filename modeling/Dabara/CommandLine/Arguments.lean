import Dabara.Text.Bytes

set_option autoImplicit false

namespace Dabara.CommandLine

/-- Where a source comes from: a file, a sample, or else standard input. -/
structure Input where
  file : Option String
  sample : Option String
  deriving DecidableEq

inductive Task
  | html (input : Input) (page : Bool)
  | tokens (input : Input)
  | ansi (input : Input)
  | css
  | samples
  | edit (file : Option String)
  deriving DecidableEq

/-- A task with the options that hold for every task. -/
structure Invocation where
  theme : Option String
  classPrefix : Option String
  config : Option String
  task : Task
  deriving DecidableEq

def Task.input? : Task → Option Input
  | .html input _ => some input
  | .tokens input => some input
  | .ansi input => some input
  | _ => none

def Task.readsStandardInput (task : Task) : Bool :=
  task.input?.any fun input => input.file.isNone && input.sample.isNone

def Task.file? : Task → Option String
  | .edit file => file
  | task => task.input?.bind Input.file

/-- Why there is no task: the version or the usage is asked for, or the words do not fit. -/
inductive Refusal
  | version
  | help
  | misuse
  deriving DecidableEq

/-- Options that take a value. -/
inductive Slot
  | theme
  | classPrefix
  | config
  | sample
  deriving DecidableEq

/-- What has been given at one level of the command line. -/
structure Given where
  theme : Option String
  classPrefix : Option String
  config : Option String
  sample : Option String
  file : Option String
  page : Bool
  deriving DecidableEq

/-- Which words a command takes beside the options of every command. -/
structure Shape where
  file : Bool
  sample : Bool
  page : Bool
  deriving DecidableEq

inductive Word
  | optionsEnd
  | long (name : Text) (value : Option String)
  | short (letter : Char)
  | bare
  deriving DecidableEq

namespace Word

/-- The looks of a word. A single hyphen is a word like any other. -/
def ofText : Text → Word
  | ['-', '-'] => .optionsEnd
  | '-' :: '-' :: rest =>
      let value :=
        match rest.dropWhile (· ≠ '=') with
        | [] => none
        | _ :: value => some (String.ofList value)
      .long (rest.takeWhile (· ≠ '=')) value
  | '-' :: letter :: _ => .short letter
  | _ => .bare

end Word

def Slot.ofName? (shape : Shape) (name : Text) : Option Slot :=
  if name = "theme".toList then some .theme
  else if name = "prefix".toList then some .classPrefix
  else if name = "config".toList then some .config
  else if name = "sample".toList ∧ shape.sample then some .sample
  else none

namespace Given

def nothing : Given :=
  ⟨none, none, none, none, none, false⟩

/-- Fills a slot. Nothing may be given twice, and a path may not be empty. -/
def fill? (given : Given) (slot : Slot) (value : String) : Option Given :=
  match slot with
  | .theme => if given.theme.isSome then none else some { given with theme := some value }
  | .classPrefix =>
      if given.classPrefix.isSome then none else some { given with classPrefix := some value }
  | .config =>
      if given.config.isSome ∨ value = "" then none else some { given with config := some value }
  | .sample => if given.sample.isSome then none else some { given with sample := some value }

def fillFile? (given : Given) (shape : Shape) (value : String) : Option Given :=
  if shape.file ∧ given.file.isNone ∧ value ≠ "" then some { given with file := some value }
  else none

def fillFiles? (given : Given) (shape : Shape) : List String → Option Given
  | [] => some given
  | word :: rest => (given.fillFile? shape word).bind (·.fillFiles? shape rest)

end Given

/-- The options before a command's name, that name, and the words behind it. `waiting` is an option
whose value is to come; the value may not look like an option itself. -/
def readHead (given : Given) (waiting : Option Slot) :
    List String → Except Refusal (Given × String × List String)
  | [] => .error .misuse
  | word :: rest =>
      let looks := Word.ofText word.toList
      match waiting with
      | some slot =>
          match looks, given.fill? slot word with
          | .bare, some given => readHead given none rest
          | _, _ => .error .misuse
      | none =>
          match looks with
          | .optionsEnd => .error .misuse
          | .short 'V' => .error .version
          | .short 'h' => .error .help
          | .short _ => .error .misuse
          | .bare => .ok (given, word, rest)
          | .long name value =>
              match Slot.ofName? ⟨false, false, false⟩ name, value with
              | some slot, some value =>
                  match given.fill? slot value with
                  | some given => readHead given none rest
                  | none => .error .misuse
              | some slot, none => readHead given (some slot) rest
              | none, none =>
                  if name = "version".toList then .error .version
                  else if name = "help".toList then .error .help
                  else .error .misuse
              | none, some _ => .error .misuse

def readTail (shape : Shape) (given : Given) (waiting : Option Slot) :
    List String → Except Refusal Given
  | [] => if waiting.isSome then .error .misuse else .ok given
  | word :: rest =>
      let looks := Word.ofText word.toList
      match waiting with
      | some slot =>
          match looks, given.fill? slot word with
          | .bare, some given => readTail shape given none rest
          | _, _ => .error .misuse
      | none =>
          match looks with
          | .optionsEnd =>
              match given.fillFiles? shape rest with
              | some given => .ok given
              | none => .error .misuse
          | .short 'h' => .error .help
          | .short _ => .error .misuse
          | .bare =>
              match given.fillFile? shape word with
              | some given => readTail shape given none rest
              | none => .error .misuse
          | .long name value =>
              match Slot.ofName? shape name, value with
              | some slot, some value =>
                  match given.fill? slot value with
                  | some given => readTail shape given none rest
                  | none => .error .misuse
              | some slot, none => readTail shape given (some slot) rest
              | none, none =>
                  if name = "page".toList ∧ shape.page ∧ given.page = false then
                    readTail shape { given with page := true } none rest
                  else if name = "help".toList then .error .help
                  else .error .misuse
              | none, some _ => .error .misuse

/-- The words a command takes, and the task it stands for. -/
def command? : String → Option (Shape × (Given → Task))
  | "html" =>
      some (⟨true, true, true⟩, fun given => .html ⟨given.file, given.sample⟩ given.page)
  | "tokens" => some (⟨true, true, false⟩, fun given => .tokens ⟨given.file, given.sample⟩)
  | "ansi" => some (⟨true, true, false⟩, fun given => .ansi ⟨given.file, given.sample⟩)
  | "css" => some (⟨false, false, false⟩, fun _ => .css)
  | "samples" => some (⟨false, false, false⟩, fun _ => .samples)
  | "edit" => some (⟨true, false, false⟩, fun given => .edit given.file)
  | _ => none

/-- Reads a command line. Options that hold for every command may stand before or behind its name;
of two values, the one behind the name counts. The first word that does not fit decides. A file and
a sample exclude each other. -/
def readWords (words : List String) : Except Refusal Invocation :=
  match readHead .nothing none words with
  | .error refusal => .error refusal
  | .ok (before, name, rest) =>
      match command? name with
      | none => .error (if name = "help" then .help else .misuse)
      | some (shape, task) =>
          match readTail shape .nothing none rest with
          | .error refusal => .error refusal
          | .ok given =>
              if given.file.isSome ∧ given.sample.isSome then .error .misuse
              else
                .ok
                  { theme := given.theme.or before.theme
                    classPrefix := given.classPrefix.or before.classPrefix
                    config := given.config.or before.config
                    task := task given }

end Dabara.CommandLine
