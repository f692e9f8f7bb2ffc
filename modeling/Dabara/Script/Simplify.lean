import Dabara.Script.Term

set_option autoImplicit false

namespace Dabara.Script

mutual

/-- The value of an expression that is written out in full. -/
def Expression.constant? : Expression → Option Value
  | .literal value => some value
  | .array items => (Expression.constants? items).map .array
  | _ => none

def Expression.constants? : List Expression → Option (List Value)
  | [] => some []
  | first :: rest =>
      match Expression.constant? first, Expression.constants? rest with
      | some value, some values => some (value :: values)
      | _, _ => none

end

mutual

/-- Whether an expression counts as one without effect. -/
def Expression.isPure : Expression → Bool
  | .literal _ => true
  | .read _ _ => true
  | .array items => (Expression.constants? items).isSome
  | .both first second | .either first second | .orElse first second =>
      first.isPure && second.isPure
  | .block body => Statement.arePure body
  | _ => false

def Statement.isPure : Statement → Bool
  | .nothing => true
  | .express expression => expression.isPure
  | .block body => Statement.arePure body
  | .choose test yes no => test.isPure && Statement.arePure yes && Statement.arePure no
  | .repeatWhile (some (.literal (.bool false))) _ => true
  | .repeatUntil body (.literal (.bool found)) wanted => found != wanted && Statement.arePure body
  | .forEach _ _ source body => source.isPure && Statement.arePure body
  | _ => false

def Statement.arePure : List Statement → Bool
  | [] => true
  | first :: rest => first.isPure && Statement.arePure rest

end

namespace Statement

/-- Whether a statement has no effect outside of the block it stands in. -/
def isLocal : Statement → Bool
  | .declare _ _ value => value.isPure
  | statement => statement.isPure

/-- Whether nothing behind a statement is reached. -/
def breaksOff : Statement → Bool
  | .leaveLoop _ | .nextRound | .leaveScript _ | .raise _ => true
  | _ => false

def givesValue : Statement → Bool
  | .choose _ _ _ | .block _ | .express _ => true
  | _ => false

/-- Whether a statement means something else outside of its block. -/
def needsBlock : Statement → Bool
  | .declare _ _ _ => true
  | .express (.block body) => body.all fun
      | .declare _ _ _ => true
      | _ => false
  | _ => false

/-- Whether a statement is a block that need not be one. -/
def isOpenable : Statement → Bool
  | .block body => !body.any needsBlock
  | _ => false

mutual

def opened : Statement → List Statement
  | .block body => if body.any needsBlock then [.block body] else openBlocks body
  | statement => [statement]

/-- Statements with the blocks among them opened that need not be blocks. -/
def openBlocks : List Statement → List Statement
  | [] => []
  | first :: rest => opened first ++ openBlocks rest

end

/-- Statements up to the first behind which nothing is reached. -/
def reached : List Statement → List Statement
  | [] => []
  | statement :: rest =>
      if statement.breaksOff then [statement] else statement :: reached rest

/-- The number of statements in front of the part of a block whose local effects nobody sees. -/
def seenCount (silent : Statement → Bool) (body : List Statement) : Nat :=
  let seen := fun
    | .declare _ _ value => (Expression.constant? value).isSome
    | .express expression => (Expression.constant? expression).isNone
    | _ => false
  match body.reverse.findIdx? fun statement => !silent statement || seen statement with
  | some position => body.length - position - 1
  | none => 0

/-- Leaves out what has no effect; `seen` of the statements come before the part whose local effects
nobody sees. The last statement stays where it gives the value. -/
def withoutSilent (silent : Statement → Bool) (keepsLast : Bool) :
    Nat → List Statement → List Statement
  | _, [] => []
  | seen, statement :: rest =>
      if keepsLast && rest.isEmpty then [statement]
      else if seen = 0 && silent statement then withoutSilent silent keepsLast 0 rest
      else if statement.isPure then withoutSilent silent keepsLast (seen - 1) rest
      else statement :: withoutSilent silent keepsLast (seen - 1) rest

def leaves : Statement → Bool
  | .leaveScript _ => true
  | _ => false

def isNothing : Statement → Bool
  | .nothing => true
  | _ => false

/-- Takes from the end of a block, in reverse, what does not add to its value. -/
def trimKeeping (silent : Statement → Bool) (reduces : Bool) : List Statement → List Statement
  | [] => []
  | [.leaveScript none] => if reduces then [] else [.leaveScript none]
  | [statement] =>
      match statement with
      | .leaveScript (some value) => if reduces then [.express value] else [statement]
      | _ => if !statement.givesValue && silent statement then [] else [statement]
  | statement :: before :: rest =>
      let dropped := fun (_ : Unit) =>
        if before.givesValue then .nothing :: before :: rest
        else trimKeeping silent reduces (before :: rest)
      match statement with
      | .leaveScript none =>
          if !reduces then statement :: before :: rest else dropped ()
      | .leaveScript (some value) =>
          if reduces then .express value :: before :: rest else statement :: before :: rest
      | _ =>
          if !statement.givesValue && silent statement then dropped ()
          else statement :: before :: rest

/-- Takes from the end of a block, in reverse, what has no effect. -/
def trimDropping (silent : Statement → Bool) (reduces : Bool) : List Statement → List Statement
  | [] => []
  | statement :: rest =>
      let ends := match statement with
        | .leaveScript none => reduces
        | .leaveScript (some value) => reduces && value.isPure
        | _ => false
      if ends || silent statement then trimDropping silent reduces rest else statement :: rest

end Statement

def Operator.isAssignable : Operator → Bool
  | .add | .subtract | .multiply | .divide | .remainder | .power | .shiftLeft | .shiftRight
  | .bitAnd | .bitOr | .bitXor => true
  | _ => false

/-- The constants in sight with their values, the innermost first; a variable has none. -/
abbrev Constants := List (String × Option Value)

/-- A step of simplification, which says whether it changed anything. -/
abbrev Pass := StateM Bool

namespace Pass

def changed {α : Type} (result : α) : Pass α := do
  set true
  pure result

/-- Runs a step and tells whether that step changed anything. -/
def observe {α : Type} (step : Pass α) : Pass (α × Bool) := do
  let before ← get
  set false
  let result ← step
  let after ← get
  set (before || after)
  pure (result, after)

end Pass

/-- The expression at an index of an array that is written out without effects. -/
def Expression.itemAt? : Expression → Expression → Option Expression
  | .array items, .literal (.int index) =>
      if items.all Expression.isPure then
        (Value.place? items.length index).bind fun place => items[place]?
      else none
  | .literal value, .literal index =>
      match value with
      | .array _ => none
      | _ => (value.index? index).map .literal
  | _, _ => none

/-- What a block as an expression comes to: nothing, or the one expression in it. -/
def Expression.ofBlock : List Statement → Pass Expression
  | [] => Pass.changed (.literal .unit)
  | [.express expression] => Pass.changed expression
  | body => pure (.block body)

mutual

def simplifyExpression (fuel : Nat) (known : Constants) (expression : Expression) :
    Pass Expression :=
  match fuel with
  | 0 => pure expression
  | fuel + 1 => do
      match expression with
      | .literal value => pure (.literal value)
      | .read name position =>
          match known.lookup name with
          | some (some value) => Pass.changed (.literal value)
          | _ => pure (.read name position)
      | .array items =>
          match Expression.constants? items with
          | some values => Pass.changed (.literal (.array values))
          | none => return .array (← simplifyAll fuel known items)
      | .call name position inputs =>
          return .call name position (← simplifyAll fuel known inputs)
      | .signed sign operand => return .signed sign (← simplifyExpression fuel known operand)
      | .operate operator first second =>
          let folded :=
            match Expression.constant? first, Expression.constant? second with
            | some left, some right => Value.direct operator left right
            | _, _ => none
          match folded with
          | some value => Pass.changed (.literal value)
          | none =>
              let first ← simplifyExpression fuel known first
              let second ← simplifyExpression fuel known second
              return .operate operator first second
      | .both first second =>
          match first, second with
          | .literal (.bool true), second => Pass.changed (← simplifyExpression fuel known second)
          | .literal (.bool false), _ => Pass.changed (.literal (.bool false))
          | first, .literal (.bool true) => Pass.changed (← simplifyExpression fuel known first)
          | first, second =>
              let first ← simplifyExpression fuel known first
              let second ← simplifyExpression fuel known second
              return .both first second
      | .either first second =>
          match first, second with
          | .literal (.bool false), second => Pass.changed (← simplifyExpression fuel known second)
          | .literal (.bool true), _ => Pass.changed (.literal (.bool true))
          | first, .literal (.bool false) => Pass.changed (← simplifyExpression fuel known first)
          | first, second =>
              let first ← simplifyExpression fuel known first
              let second ← simplifyExpression fuel known second
              return .either first second
      | .orElse first second =>
          match Expression.constant? first with
          | some .unit => Pass.changed second
          | some _ => Pass.changed first
          | none =>
              let first ← simplifyExpression fuel known first
              let second ← simplifyExpression fuel known second
              return .orElse first second
      | .access root links =>
          let item :=
            match links with
            | [.index position] => Expression.itemAt? root position
            | _ => none
          match item with
          | some item => Pass.changed item
          | none =>
              let root ←
                match root with
                | .read name position => pure (.read name position)
                | _ => simplifyExpression fuel known root
              return .access root (← simplifyLinks fuel known links)
      | .block [] => Expression.ofBlock []
      | .block [.express inner] => Pass.changed (← simplifyExpression fuel known inner)
      | .block body => Expression.ofBlock (← simplifyBlock fuel known true true false body)

def simplifyAll (fuel : Nat) (known : Constants) (expressions : List Expression) :
    Pass (List Expression) :=
  match fuel, expressions with
  | 0, _ => pure expressions
  | _, [] => pure []
  | fuel + 1, first :: rest => do
      let first ← simplifyExpression fuel known first
      let rest ← simplifyAll fuel known rest
      pure (first :: rest)

def simplifyLinks (fuel : Nat) (known : Constants) (links : List Link) : Pass (List Link) :=
  match fuel, links with
  | 0, _ => pure links
  | _, [] => pure []
  | fuel + 1, first :: rest => do
      let first ←
        match first with
        | .index position => do pure (.index (← simplifyExpression fuel known position))
        | .property name => pure (.property name)
        | .method name inputs => do pure (.method name (← simplifyAll fuel known inputs))
      let rest ← simplifyLinks fuel known rest
      pure (first :: rest)

/-- A simpler statement. Its value matters if it `keepsValue`. -/
def simplifyStatement (fuel : Nat) (known : Constants) (keepsValue : Bool)
    (statement : Statement) : Pass Statement :=
  match fuel with
  | 0 => pure statement
  | fuel + 1 => do
      let branch := fun (body : List Statement) => do
        match ← simplifyBlock fuel known keepsValue true false body with
        | [] => Pass.changed Statement.nothing
        | body => Pass.changed (Statement.block body)
      match statement with
      | .express (.block []) => Pass.changed .nothing
      | .express (.block body) =>
          Pass.changed (.block (← simplifyBlock fuel known true true false body))
      | .express expression => return .express (← simplifyExpression fuel known expression)
      | .declare name constant value =>
          return .declare name constant (← simplifyExpression fuel known value)
      | .assign name none (.operate operator (.read read position) value) =>
          if operator.isAssignable && read == name then
            Pass.changed (.assign name (some operator) value)
          else
            let value ←
              simplifyExpression fuel known (.operate operator (.read read position) value)
            return .assign name none value
      | .assign name operator value =>
          return .assign name operator (← simplifyExpression fuel known value)
      | .assignPart name links operator value =>
          let links ← simplifyLinks fuel known links
          return .assignPart name links operator (← simplifyExpression fuel known value)
      | .block body =>
          match ← simplifyBlock fuel known keepsValue true false body with
          | [] => Pass.changed .nothing
          | [only] => if only.needsBlock then return .block [only] else Pass.changed only
          | body => return .block body
      | .choose test [] [] =>
          let test ← simplifyExpression fuel known test
          Pass.changed (if keepsValue then .block [.express test, .nothing] else .express test)
      | .choose (.literal (.bool false)) _ no => branch no
      | .choose (.literal (.bool true)) yes _ => branch yes
      | .choose test yes no =>
          let test ← simplifyExpression fuel known test
          let yes ← simplifyBlock fuel known keepsValue true false yes
          let no ← simplifyBlock fuel known keepsValue true false no
          return .choose test yes no
      | .repeatWhile (some (.literal (.bool false))) _ => Pass.changed .nothing
      | .repeatWhile (some test) body =>
          let test ← simplifyExpression fuel known test
          let body ← simplifyBlock fuel known false true false body
          match test with
          | .literal (.bool true) => return .repeatWhile none body
          | test => return .repeatWhile (some test) body
      | .repeatWhile none body =>
          return .repeatWhile none (← simplifyBlock fuel known false true false body)
      | .repeatUntil body test wanted =>
          let test ← simplifyExpression fuel known test
          return .repeatUntil (← simplifyBlock fuel known false true false body) test wanted
      | .forEach item counter source body =>
          let source ← simplifyExpression fuel known source
          return .forEach item counter source (← simplifyBlock fuel known false true false body)
      | .leaveLoop (some value) => return .leaveLoop (some (← simplifyExpression fuel known value))
      | .leaveScript (some value) =>
          return .leaveScript (some (← simplifyExpression fuel known value))
      | .raise (some value) => return .raise (some (← simplifyExpression fuel known value))
      | other => pure other

/-- Simpler statements, each of which sees the constants declared before it. -/
def simplifyEach (fuel : Nat) (known : Constants) (keepsValue : Bool) (body : List Statement) :
    Pass (List Statement) :=
  match fuel, body with
  | 0, _ => pure body
  | _, [] => pure []
  | fuel + 1, first :: rest => do
      let first ← simplifyStatement fuel known keepsValue first
      let known := match first with
        | .declare name true value => (name, Expression.constant? value) :: known
        | .declare name false _ => (name, none) :: known
        | _ => known
      let rest ← simplifyEach fuel known keepsValue rest
      pure (first :: rest)

def simplifyRound (fuel : Nat) (known : Constants) (keepsValue inner reduces : Bool)
    (body : List Statement) : Pass (List Statement) :=
  match fuel with
  | 0 => pure body
  | fuel + 1 => do
      let silent := if inner then Statement.isLocal else Statement.isPure
      let live := Statement.reached body
      let simpler ← simplifyEach fuel known keepsValue live
      let seen := Statement.seenCount silent simpler
      let fewer := Statement.withoutSilent silent keepsValue seen simpler
      let trimmed :=
        (if keepsValue then Statement.trimKeeping silent reduces fewer.reverse
        else Statement.trimDropping silent reduces fewer.reverse).reverse
      let replaced :=
        match fewer.getLast?, trimmed.getLast? with
        | some before, some after =>
            before.isNothing != after.isNothing || before.leaves != after.leaves
        | _, _ => false
      if replaced || live.length != body.length || trimmed.length != simpler.length then
        Pass.changed trimmed
      else pure trimmed

def simplifyRounds (fuel : Nat) (known : Constants) (keepsValue inner reduces : Bool)
    (body : List Statement) : Pass (List Statement) :=
  match fuel with
  | 0 => pure body
  | fuel + 1 => do
      let (next, again) ← Pass.observe (simplifyRound fuel known keepsValue inner reduces body)
      if again then simplifyRounds fuel known keepsValue inner reduces next else pure next

/-- A simpler block. The value of its last statement matters if it `keepsValue`, its variables are
its own if it is `inner`, and leaving the script at its end is leaving the block if it `reduces`. -/
def simplifyBlock (fuel : Nat) (known : Constants) (keepsValue inner reduces : Bool)
    (body : List Statement) : Pass (List Statement) :=
  match fuel with
  | 0 => pure body
  | fuel + 1 => do
      let body ←
        if body.any Statement.isOpenable then Pass.changed (Statement.openBlocks body)
        else pure body
      simplifyRounds fuel known keepsValue inner reduces body

end

/-- The script that is run in place of a written one. What has no effect is left out, even where it
would have failed, and operators and conditions on literals are carried out; `fuel` bounds the
calls. -/
def simplify (fuel : Nat) (script : List Statement) : List Statement :=
  ((simplifyBlock fuel [] true false true script).run false).1

end Dabara.Script
