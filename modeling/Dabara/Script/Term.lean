import Dabara.Script.Token
import Dabara.Script.Value

set_option autoImplicit false

namespace Dabara.Script

inductive Sign
  | minus
  | plus
  | not
  deriving DecidableEq

mutual

inductive Expression
  | literal (value : Value)
  | read (name : String) (position : Position)
  | array (items : List Expression)
  | call (name : String) (position : Position) (inputs : List Expression)
  | signed (sign : Sign) (operand : Expression)
  | operate (operator : Operator) (first second : Expression)
  | both (first second : Expression)
  | either (first second : Expression)
  | orElse (first second : Expression)
  | access (root : Expression) (links : List Link)
  | block (body : List Statement)

/-- A step from a value to a part of it or to something about it. -/
inductive Link
  | index (position : Expression)
  | property (name : String)
  | method (name : String) (inputs : List Expression)

/-- A part of a script that does something. An endless loop has no test; a loop whose test comes
last goes on as long as the test gives `wanted`. -/
inductive Statement
  | nothing
  | express (expression : Expression)
  | declare (name : String) (constant : Bool) (value : Expression)
  | assign (name : String) (operator : Option Operator) (value : Expression)
  | assignPart (name : String) (links : List Link) (operator : Option Operator) (value : Expression)
  | block (body : List Statement)
  | choose (test : Expression) (yes no : List Statement)
  | repeatWhile (test : Option Expression) (body : List Statement)
  | repeatUntil (body : List Statement) (test : Expression) (wanted : Bool)
  | forEach (item : String) (counter : Option String) (source : Expression) (body : List Statement)
  | leaveLoop (value : Option Expression)
  | nextRound
  | leaveScript (value : Option Expression)
  | raise (value : Option Expression)

end

end Dabara.Script
