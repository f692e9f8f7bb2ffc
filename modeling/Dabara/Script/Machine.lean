import Dabara.Script
import Dabara.Script.Parser
import Dabara.Script.Simplify

set_option autoImplicit false

namespace Dabara.Script

def maxOperations : Nat :=
  100000

structure Variable where
  name : String
  value : Value
  constant : Bool

/-- A script on its way: its variables, the innermost first, and the operations it has left. -/
structure Machine where
  scope : List Variable
  operations : Nat

/-- Why a part of a script gives no value. -/
inductive Stop
  | failed
  | leftLoop (value : Value)
  | nextRound
  | leftScript

/-- Something a script does: it ends with a value or stops, and either way the machine goes on as it
then is. -/
abbrev Action := ExceptT Stop (StateT Machine Process)

/-- A link whose inputs have been evaluated. -/
inductive Access
  | index (position : Value)
  | property (name : String)
  | method (name : String) (inputs : List Value)

namespace Action

/-- Pays for operations, unless there are not as many left. -/
def spend (count : Nat) : Action Unit := do
  let machine ← get
  if count ≤ machine.operations then
    set { machine with operations := machine.operations - count }
  else throw .failed

def value : Option Value → Action Value
  | some value => pure value
  | none => throw .failed

def variableNamed (name : String) : Action Variable := do
  match (← get).scope.find? (·.name == name) with
  | some found => pure found
  | none => throw .failed

def declare (name : String) (constant : Bool) (value : Value) : Action Unit :=
  modify fun machine => { machine with scope := ⟨name, value, constant⟩ :: machine.scope }

def replaced (name : String) (value : Value) : List Variable → List Variable
  | [] => []
  | found :: rest =>
      if found.name = name then { found with value } :: rest else found :: replaced name value rest

def replace (name : String) (value : Value) : Action Unit :=
  modify fun machine => { machine with scope := replaced name value machine.scope }

/-- Forgets the variables that an action has declared, however it ends. -/
def enclosed {α : Type} (action : Action α) : Action α := fun machine => do
  let (result, after) ← action.run machine
  pure (result,
    { after with scope := after.scope.drop (after.scope.length - machine.scope.length) })

def ask (call : Call) : Action call.Reply := fun machine =>
  .ask call fun reply => .done (.ok reply, machine)

def change (setting : Setting) : Action Value := do
  ask (.set setting)
  pure .unit

def log (text : String) : Action Value := do
  ask (.print text)
  pure .unit

/-- Writes a line to standard output, with the position of the call before it. -/
def report (position : Position) (text : String) : Action Value := fun machine =>
  let line := toString (position.line + 1) ++ ":" ++ toString (position.column + 1) ++ " | " ++
    text ++ "\n"
  .write line.toList (.done (.ok .unit, machine))

/-- Calls a function. If none has that name and takes such inputs, the call fails. -/
def call (name : String) (position : Position) (inputs : List Value) : Action Value := do
  spend 1
  match name, inputs with
  | "set_theme", [.text theme] => change (.theme theme)
  | "get_theme", [] => return .text (← ask .getTheme)
  | "set_tab_width", [.int width] => change (.tabWidth width)
  | "set_class_prefix", [.text text] => change (.classPrefix text)
  | "set_show_line_numbers", [.bool shown] => change (.lineNumbers shown)
  | "list_themes", [] => return .array ((← ask .listThemes).map .text)
  | "print", [] => log ""
  | "print", [input] => log input.shown
  | "debug", [] => report position ""
  | "debug", [input] => report position input.quoted
  | "len", [input] => value (input.length?.map fun length => .int length)
  | "is_empty", [input] => value (input.length?.map fun length => .bool (length = 0))
  | "contains", [whole, part] => value ((whole.contains? part).map .bool)
  | "type_of", [input] => pure (.text input.kind)
  | "is_def_var", [.text name] => return .bool ((← get).scope.any (·.name == name))
  | "exit", [] | "exit", [_] => throw .leftScript
  | _, _ => throw .failed

def operate (operator : Operator) (first second : Value) : Action Value := do
  match Value.direct operator first second with
  | some result => pure result
  | none =>
      spend 1
      value (Value.supplied operator first second)

def signed (sign : Sign) (operand : Value) : Action Value := do
  match sign, operand with
  | .not, .bool operand => pure (.bool !operand)
  | .minus, operand => do spend 1; value operand.negate
  | .plus, .int number => do spend 1; pure (.int number)
  | .plus, .float number => do spend 1; pure (.float number)
  | _, _ => throw .failed

def follow : List Access → Value → Action Value
  | [], found => pure found
  | .index position :: rest, found => do
      spend 1
      follow rest (← value (found.index? position))
  | .method name inputs :: rest, found => do follow rest (← call name .start (found :: inputs))
  | .property name :: rest, found => do
      if name = "len" ∨ name = "is_empty" then follow rest (← call name .start [found])
      else throw .failed

/-- What is to stand in place of a value after an assignment. -/
def assigned (operator : Option Operator) (before value : Value) : Option (Value × Nat) :=
  match operator with
  | none => some (value, 0)
  | some operator => Value.assigned operator before value

def assign (name : String) (operator : Option Operator) (value : Value) : Action Unit := do
  spend 1
  let found ← variableNamed name
  match assigned operator found.value value with
  | some (after, calls) => do
      spend calls
      replace name after
  | none => throw .failed

/-- The indices of a path, unless something else is on it. -/
def path? : List Access → Option (List Value)
  | [] => some []
  | .index position :: rest => (path? rest).map (position :: ·)
  | _ => none

def assignPart (name : String) (links : List Access) (operator : Option Operator) (value : Value) :
    Action Unit := do
  spend (1 + links.length)
  let found ← variableNamed name
  let change := fun (before : Value) => (assigned operator before value).map Prod.fst
  match (path? links).bind fun path => Value.update change path found.value with
  | some after => if found.constant then throw .failed else replace name after
  | none => throw .failed

mutual

def evaluate (fuel : Nat) (expression : Expression) : Action Value :=
  match fuel with
  | 0 => throw .failed
  | fuel + 1 => do
      spend 1
      carryOut fuel expression

/-- The value of an expression that has been paid for. A variable as the first input of a call is
looked up behind the other inputs. -/
def carryOut (fuel : Nat) (expression : Expression) : Action Value :=
  match fuel with
  | 0 => throw .failed
  | fuel + 1 =>
      match expression with
      | .literal value => pure value
      | .read name _ => return (← variableNamed name).value
      | .array items => return .array (← evaluateAll fuel items)
      | .call name position (.read first _ :: others) => do
          spend 1
          let values ← evaluateAll fuel others
          let found ← variableNamed first
          call name position (found.value :: values)
      | .call name position inputs => do call name position (← evaluateAll fuel inputs)
      | .signed sign operand => do signed sign (← evaluate fuel operand)
      | .operate operator first second => do
          let left ← evaluate fuel first
          let right ← evaluate fuel second
          operate operator left right
      | .both first second => do
          if ← decide? fuel first then return .bool (← decide? fuel second)
          return .bool false
      | .either first second => do
          if ← decide? fuel first then return .bool true
          return .bool (← decide? fuel second)
      | .orElse first second => do
          match ← evaluate fuel first with
          | .unit => evaluate fuel second
          | found => pure found
      | .access root links => do
          let links ← prepare fuel links
          follow links (← evaluate fuel root)
      | .block body => runBlock fuel body

def decide? (fuel : Nat) (expression : Expression) : Action Bool :=
  match fuel with
  | 0 => throw .failed
  | fuel + 1 => do
      match ← evaluate fuel expression with
      | .bool result => pure result
      | _ => throw .failed

def evaluateAll (fuel : Nat) (expressions : List Expression) : Action (List Value) :=
  match fuel, expressions with
  | 0, _ => throw .failed
  | _, [] => pure []
  | fuel + 1, first :: rest => do
      let first ← evaluate fuel first
      let rest ← evaluateAll fuel rest
      pure (first :: rest)

/-- The links of an access with everything in them evaluated. A single link in which nothing has to
be evaluated costs nothing. -/
def prepare (fuel : Nat) (links : List Link) : Action (List Access) :=
  match fuel with
  | 0 => throw .failed
  | fuel + 1 =>
      match links with
      | [.index (.literal position)] => pure [.index position]
      | [.property name] => pure [.property name]
      | [.method name []] => pure [.method name []]
      | links => prepareAll fuel links

/-- The links of an access with everything in them evaluated, for one operation each. -/
def prepareAll (fuel : Nat) (links : List Link) : Action (List Access) :=
  match fuel, links with
  | 0, _ => throw .failed
  | _, [] => pure []
  | fuel + 1, first :: rest => do
      spend 1
      let first ←
        match first with
        | .index position => do pure (.index (← evaluate fuel position))
        | .property name => pure (.property name)
        | .method name inputs => do pure (.method name (← evaluateAll fuel inputs))
      let rest ← prepareAll fuel rest
      pure (first :: rest)

/-- Runs a statement. A call as a statement is paid for only once. -/
def runStatement (fuel : Nat) (statement : Statement) : Action Value :=
  match fuel with
  | 0 => throw .failed
  | fuel + 1 => do
      spend 1
      match statement with
      | .nothing => pure .unit
      | .express expression =>
          match expression with
          | .call _ _ _ | .signed _ _ | .operate _ _ _ => carryOut fuel expression
          | _ => evaluate fuel expression
      | .declare name constant value => do
          declare name constant (← evaluate fuel value)
          pure .unit
      | .assign name operator value => do
          assign name operator (← evaluate fuel value)
          pure .unit
      | .assignPart name links operator value => do
          let value ← evaluate fuel value
          assignPart name (← prepare fuel links) operator value
          pure .unit
      | .block body => runBlock fuel body
      | .choose test yes no => do
          if ← decide? fuel test then runBlock fuel yes else runBlock fuel no
      | .repeatWhile test body => runWhile fuel test body
      | .repeatUntil body test wanted => runUntil fuel body test wanted
      | .forEach item counter source body => do
          let found ← evaluate fuel source
          match found.items? (maxOperations + 1) with
          | some values => runEach fuel item counter 0 values body
          | none => throw .failed
      | .leaveLoop none => throw (.leftLoop .unit)
      | .leaveLoop (some value) => do throw (.leftLoop (← evaluate fuel value))
      | .nextRound => throw .nextRound
      | .leaveScript none => throw .leftScript
      | .leaveScript (some value) => do
          let _ ← evaluate fuel value
          throw .leftScript
      | .raise none => throw .failed
      | .raise (some value) => do
          let _ ← evaluate fuel value
          throw .failed

/-- Runs statements in order; the value is that of the last. -/
def runAll (fuel : Nat) (body : List Statement) : Action Value :=
  match fuel, body with
  | 0, _ => throw .failed
  | _, [] => pure .unit
  | fuel + 1, [last] => runStatement fuel last
  | fuel + 1, first :: rest => do
      let _ ← runStatement fuel first
      runAll fuel rest

def runBlock (fuel : Nat) (body : List Statement) : Action Value :=
  match fuel with
  | 0 => throw .failed
  | fuel + 1 => enclosed (runAll fuel body)

/-- Runs the body of a loop once; gives the value with which the loop was left, if it was. -/
def runRound (fuel : Nat) (body : List Statement) : Action (Option Value) :=
  match fuel with
  | 0 => throw .failed
  | fuel + 1 => fun machine => do
      match ← (runBlock fuel body).run machine with
      | (.error (.leftLoop value), machine) => pure (.ok (some value), machine)
      | (.error .nextRound, machine) => pure (.ok none, machine)
      | (.ok _, machine) => pure (.ok none, machine)
      | (.error stop, machine) => pure (.error stop, machine)

/-- Runs a loop as long as its test holds. A round of an empty endless loop costs one operation. -/
def runWhile (fuel : Nat) (test : Option Expression) (body : List Statement) :
    Action Value :=
  match fuel with
  | 0 => throw .failed
  | fuel + 1 => do
      let goesOn ←
        match test with
        | some test => decide? fuel test
        | none => do
            spend (if body.isEmpty then 1 else 0)
            pure true
      if goesOn then
        match ← runRound fuel body with
        | some value => pure value
        | none => runWhile fuel test body
      else pure .unit

/-- Runs a loop as long as the test behind its body gives `wanted`. -/
def runUntil (fuel : Nat) (body : List Statement) (test : Expression) (wanted : Bool) :
    Action Value :=
  match fuel with
  | 0 => throw .failed
  | fuel + 1 => do
      match ← runRound fuel body with
      | some value => pure value
      | none => do
          if (← decide? fuel test) == wanted then runUntil fuel body test wanted else pure .unit

/-- Runs a loop once for each value, the first of which is number `count`. -/
def runEach (fuel : Nat) (item : String) (counter : Option String) (count : Nat)
    (values : List Value) (body : List Statement) : Action Value :=
  match fuel, values with
  | 0, _ => throw .failed
  | _, [] => pure .unit
  | fuel + 1, first :: rest => do
      spend 1
      let round : Action (Option Value) := enclosed do
        match counter with
        | some counter => declare counter false (.int count)
        | none => pure ()
        declare item false first
        runRound fuel body
      match ← round with
      | some value => pure value
      | none => runEach fuel item counter (count + 1) rest body

end

end Action

/-- The engine that the program runs unless it is given another. It knows the part of the language
that settings need; a script beyond that is malformed to it or fails. Among any six calls in a row
one pays for an operation or goes deeper into the script, so the fuel outlasts the operations. -/
def engine : Engine := fun source =>
  (parse source).map fun written => do
    let script := simplify (8 * source.length + 1000) written
    let (result, _) ← (Action.runAll (8 * (maxOperations + source.length)) script).run
      ⟨[], maxOperations⟩
    match result with
    | .error .failed => pure .failed
    | _ => pure .completed

end Dabara.Script
