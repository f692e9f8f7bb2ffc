import Dabara.Text.Quoted

set_option autoImplicit false

namespace Dabara.CommandLine

/-- A warning: the part of the program that gives it, the names of the values it carries, and its
text. -/
structure Warning where
  origin : String
  carried : List String
  text : String
  deriving DecidableEq

namespace Log

inductive Level
  | off
  | error
  | warn
  | info
  | debug
  | trace
  deriving DecidableEq

def Level.admitsWarnings : Level → Bool
  | .off | .error => false
  | .warn | .info | .debug | .trace => true

/-- A number written in decimal, perhaps behind a plus sign. -/
def number? (text : Text) : Option Nat :=
  let digits := if text.head? = some '+' then text.tail else text
  if digits.isEmpty || !digits.all Char.isDigit then none
  else some (digits.foldl (fun number c => 10 * number + (c.toNat - '0'.toNat)) 0)

/-- A level by its number or by its name, which may be written in capitals. -/
def Level.ofText? (text : Text) : Option Level :=
  match number? text with
  | some number => [Level.off, .error, .warn, .info, .debug, .trace][number]?
  | none =>
      match String.ofList (text.map Char.toLower) with
      | "" | "error" => some .error
      | "warn" => some .warn
      | "info" => some .info
      | "debug" => some .debug
      | "trace" => some .trace
      | "off" => some .off
      | _ => none

/-- A directive: the level it gives, the names with which the parts it concerns begin, the values
that have to be carried, and whether it waits for some stretch of the program, which no warning
lies in. -/
structure Directive where
  level : Level
  target : Option Text
  carried : List Text
  waits : Bool
  deriving DecidableEq

/-- Where the reading of a directive stands. A number is the index at which a part began. -/
inductive Place
  | start
  | levelOrTarget (begun : Nat)
  | stretch (begun : Nat)
  | value (begun : Nat)
  | values
  | target
  | level (begun : Nat)

def part (source : Text) (start stop : Nat) : Text :=
  (source.drop start).take (stop - start)

/-- Whether a directive can begin with a character other than a bracket. -/
def startsDirective (c : Char) : Bool :=
  c.isAlphanum || c == '-' || c == ':' || c == '_' || (127 < c.toNat && !isUnseen c)

/-- A directive with one more value that has to be carried. One that has to be carried with a
certain content makes the directive wait. -/
def Directive.require (directive : Directive) (value : Text) : Directive :=
  { directive with
    carried := directive.carried ++ [value.takeWhile (· ≠ '=')]
    waits := directive.waits || value.contains '=' }

def advance (source : Text) (directive : Directive) (place : Place) (index : Nat) (c : Char) :
    Option (Directive × Place) :=
  match place with
  | .start =>
      if c = '[' then some (directive, .stretch (index + 1))
      else if startsDirective c then some (directive, .levelOrTarget index)
      else none
  | .levelOrTarget start =>
      let target := some (part source start index)
      if c = '=' then some ({ directive with target }, .level (index + 1))
      else if c = '[' then some ({ directive with target }, .stretch (index + 1))
      else some (directive, place)
  | .stretch start =>
      if c = ']' then some ({ directive with waits := true }, .target)
      else if c = '\x7b' then
        some ({ directive with waits := decide (start < index) }, .value (index + 1))
      else some (directive, place)
  | .value start =>
      if c = '\x7d' then
        if start = index then none
        else some (directive.require (part source start index), .values)
      else some (directive, place)
  | .values => if c = ']' then some (directive, .target) else none
  | .target => if c = '=' then some (directive, .level (index + 1)) else none
  | .level _ => some (directive, place)

def advanceAll (source : Text) :
    Directive → Place → Nat → Text → Option (Directive × Place)
  | directive, place, _, [] => some (directive, place)
  | directive, place, index, c :: rest =>
      match advance source directive place index c with
      | some (directive, place) => advanceAll source directive place (index + 1) rest
      | none => none

def isSpace (c : Char) : Bool :=
  c == ' ' || (9 ≤ c.toNat && c.toNat ≤ 13)

def trimmed (text : Text) : Text :=
  ((text.dropWhile isSpace).reverse.dropWhile isSpace).reverse

/-- The directive that a text writes. A target without a level is logged in full. -/
def Directive.ofText? (source : Text) : Option Directive :=
  match advanceAll source ⟨.trace, none, [], false⟩ .start 0 (trimmed source) with
  | some (directive, .levelOrTarget start) =>
      match Level.ofText? (source.drop start) with
      | some level => some { directive with level, target := none }
      | none => some { directive with target := some (source.drop start) }
  | some (directive, .level start) =>
      if source.drop start = [] then some directive
      else (Level.ofText? (source.drop start)).map fun level => { directive with level }
  | some (directive, .target) => some directive
  | _ => none

def betweenCommas : Text → List Text
  | [] => [[]]
  | c :: rest =>
      if c = ',' then [] :: betweenCommas rest
      else
        match betweenCommas rest with
        | [] => [[c]]
        | first :: others => (c :: first) :: others

/-- Directives that decide what is logged. Of those that concern a warning the most specific one
decides. -/
abbrev Filter := List Directive

def Filter.ofText? (text : Text) : Option Filter :=
  ((betweenCommas text).filter (· ≠ [])).mapM Directive.ofText?

/-- The filter in force when none is chosen: warnings and worse. -/
def Filter.usual : Filter :=
  [⟨.warn, none, [], false⟩]

/-- The filter in force. One that cannot be read counts for nothing. -/
def Filter.ofSetting (setting : Option String) : Filter :=
  (setting.bind fun text => Filter.ofText? text.toList).getD .usual

def Directive.concerns (directive : Directive) (warning : Warning) : Bool :=
  !directive.waits &&
    (directive.target.getD []).isPrefixOf warning.origin.toList &&
    directive.carried.all fun value => warning.carried.contains (String.ofList value)

/-- Whether a directive is at least as specific as another: a longer target comes before a shorter
one, any target before none, and more values before fewer. -/
def Directive.isAtLeast (first second : Directive) : Bool :=
  let length := fun (directive : Directive) =>
    (directive.target.map fun name => byteLength name + 1).getD 0
  length second < length first ||
    (length second == length first && second.carried.length ≤ first.carried.length)

/-- The most specific directive for a warning, of equal ones the last. -/
def Filter.deciding? (filter : Filter) (warning : Warning) : Option Directive :=
  filter.foldl (fun chosen directive =>
    if directive.concerns warning && chosen.all directive.isAtLeast then some directive
    else chosen) none

def Filter.admits (filter : Filter) (warning : Warning) : Bool :=
  (filter.deciding? warning).any fun directive => directive.level.admitsWarnings

/-- A message as a log line shows it: characters that steer a terminal are written out. -/
def plainMessage (message : Text) : Text :=
  message.flatMap fun c =>
    if c = '\x1b' ∨ c = '\x07' ∨ c = '\x08' ∨ c = '\x0c' ∨ c = '\x7f' then
      "\\x".toList ++ hexDigits 2 c.toNat
    else if 0x80 ≤ c.toNat ∧ c.toNat ≤ 0x9f then
      "\\u\x7b".toList ++ hexDigits 1 c.toNat ++ ['\x7d']
    else [c]

end Log

end Dabara.CommandLine
