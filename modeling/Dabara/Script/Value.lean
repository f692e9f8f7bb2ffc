import Dabara.Text.Decimal
import Dabara.Text.Quoted

set_option autoImplicit false

namespace Dabara.Script

/-- A value. A range that is `closed` holds its last number. -/
inductive Value
  | unit
  | bool (value : Bool)
  | int (value : Int)
  | float (value : Float)
  | char (value : Char)
  | text (value : String)
  | array (items : List Value)
  | range (first last : Int) (closed : Bool)

/-- Operators with two operands, both of which are always evaluated. -/
inductive Operator
  | add
  | subtract
  | multiply
  | divide
  | remainder
  | power
  | shiftLeft
  | shiftRight
  | bitAnd
  | bitOr
  | bitXor
  | equal
  | differ
  | less
  | lessOrEqual
  | greater
  | greaterOrEqual
  | range
  | closedRange
  deriving DecidableEq

namespace Value

def minInt : Int :=
  -9223372036854775808

def maxInt : Int :=
  9223372036854775807

/-- An integer value, if the number fits. -/
def int? (number : Int) : Option Value :=
  if minInt ≤ number ∧ number ≤ maxInt then some (.int number) else none

def kind : Value → String
  | .unit => "()"
  | .bool _ => "bool"
  | .int _ => "i64"
  | .float _ => "f64"
  | .char _ => "char"
  | .text _ => "string"
  | .array _ => "array"
  | .range _ _ false => "range"
  | .range _ _ true => "range="

mutual

/-- A value as an item of a printed array. -/
def quoted : Value → String
  | .unit => "()"
  | .bool value => if value then "true" else "false"
  | .int value => toString value
  | .float value => FloatFormat.item.write value
  | .char value => String.singleton value
  | .text value => String.ofList (Quoted.quote value.toList)
  | .array items => "[" ++ ", ".intercalate (quotedAll items) ++ "]"
  | .range first last closed => toString first ++ (if closed then "..=" else "..") ++ toString last

def quotedAll : List Value → List String
  | [] => []
  | item :: rest => quoted item :: quotedAll rest

end

/-- A value as it is joined to a text. -/
def shown : Value → String
  | .unit => ""
  | .float value => FloatFormat.plain.write value
  | .text value => value
  | value => quoted value

/-- What an order test says of two values of which it is known whether the first is less and whether
they are the same; other operators have no result. -/
def ordered (operator : Operator) (less same : Bool) : Option Value :=
  match operator with
  | .less => some (.bool (less && !same))
  | .lessOrEqual => some (.bool (less || same))
  | .greater => some (.bool (!less && !same))
  | .greaterOrEqual => some (.bool (!less || same))
  | .equal => some (.bool same)
  | .differ => some (.bool (!same))
  | _ => none

/-- Values of different kinds differ, and no order holds between them. -/
def unrelated : Operator → Option Value
  | .equal | .less | .lessOrEqual | .greater | .greaterOrEqual => some (.bool false)
  | .differ => some (.bool true)
  | _ => none

/-- The bits of an integer moved up, and down for a negative number of places. Bits that leave are
lost, and moving down keeps the sign. -/
def shifted (number places : Int) : Int :=
  if 64 ≤ places then 0
  else if 0 ≤ places then (BitVec.ofInt 64 number <<< places.toNat).toInt
  else if places ≤ -64 then (if number < 0 then -1 else 0)
  else ((BitVec.ofInt 64 number).sshiftRight places.natAbs).toInt

/-- An integer raised to an integer that is not negative. Only the powers of minus one, zero and one
go on past the sixty-fourth. -/
def raised (base exponent : Int) : Option Value :=
  if exponent < 0 then none
  else if exponent < 64 then int? (Int.pow base exponent.toNat)
  else if base = 0 ∨ base = 1 then some (.int base)
  else if base = -1 then some (.int (if exponent % 2 = 0 then 1 else -1))
  else none

/-- Integer arithmetic. Division goes toward zero, and a remainder has the sign of the dividend. -/
def integer (operator : Operator) (first second : Int) : Option Value :=
  match operator with
  | .add => int? (first + second)
  | .subtract => int? (first - second)
  | .multiply => int? (first * second)
  | .divide => if second = 0 then none else int? (first.tdiv second)
  | .remainder =>
      if second = 0 then none
      else (int? (first.tdiv second)).bind fun _ => int? (first.tmod second)
  | .power => raised first second
  | .shiftLeft => some (.int (shifted first second))
  | .shiftRight => some (.int (shifted first (-second)))
  | .bitAnd => some (.int (BitVec.ofInt 64 first &&& BitVec.ofInt 64 second).toInt)
  | .bitOr => some (.int (BitVec.ofInt 64 first ||| BitVec.ofInt 64 second).toInt)
  | .bitXor => some (.int (BitVec.ofInt 64 first ^^^ BitVec.ofInt 64 second).toInt)
  | .range => some (.range first second false)
  | .closedRange => some (.range first second true)
  | _ => ordered operator (first < second) (first = second)

/-- The remainder of a division toward zero, which has the sign of the dividend. -/
def floatRemainder (first second : Float) : Float :=
  match Binary.ofFloat? first, Binary.ofFloat? second with
  | none, _ => 0.0 / 0.0
  | some _, none => if second == second then first else second
  | some left, some right =>
      if right.mantissa = 0 then 0.0 / 0.0
      else
        let size := (Binary.remainder left right).toFloat
        if first < 0.0 then -size else size

def floating (operator : Operator) (first second : Float) : Option Value :=
  match operator with
  | .add => some (.float (first + second))
  | .subtract => some (.float (first - second))
  | .multiply => some (.float (first * second))
  | .divide => some (.float (first / second))
  | .remainder => some (.float (floatRemainder first second))
  | .power => some (.float (first.pow second))
  | .less => some (.bool (first < second))
  | .lessOrEqual => some (.bool (first ≤ second))
  | .greater => some (.bool (second < first))
  | .greaterOrEqual => some (.bool (second ≤ first))
  | .equal => some (.bool (first == second))
  | .differ => some (.bool (first != second))
  | _ => none

def boolean (operator : Operator) (first second : Bool) : Option Value :=
  match operator with
  | .bitAnd => some (.bool (first && second))
  | .bitOr => some (.bool (first || second))
  | .bitXor => some (.bool (first != second))
  | _ => ordered operator (!first && second) (first = second)

/-- A text without any occurrence of another. Nothing taken from a text leaves it, and what is taken
from the empty text is left. -/
def without (text part : String) : String :=
  if part = "" then text
  else if text = "" then part
  else text.replace part ""

def textual (operator : Operator) (first second : String) : Option Value :=
  match operator with
  | .add => some (.text (first ++ second))
  | .subtract => some (.text (without first second))
  | _ => ordered operator (first < second) (first = second)

/-- The result of an operator that is part of the language. A character beside a text stands for the
text of that character. -/
def direct (operator : Operator) (first second : Value) : Option Value :=
  match first, second with
  | .unit, .unit => (unrelated operator).map fun _ => .bool (operator = .equal)
  | .bool left, .bool right => boolean operator left right
  | .int left, .int right => integer operator left right
  | .float left, .float right => floating operator left right
  | .int left, .float right => floating operator (Float.ofInt left) right
  | .float left, .int right => floating operator left (Float.ofInt right)
  | .text left, .text right => textual operator left right
  | .char left, .char right =>
      if operator = .subtract then none
      else textual operator (String.singleton left) (String.singleton right)
  | .text left, .char right =>
      if operator = .subtract then
        some (.text (String.ofList (left.toList.filter (· ≠ right))))
      else textual operator left (String.singleton right)
  | .char left, .text right =>
      if operator = .subtract then none else textual operator (String.singleton left) right
  | .unit, .text right => if operator = .add then some (.text right) else unrelated operator
  | .text left, .unit => if operator = .add then some (.text left) else unrelated operator
  | .range start stop closed, .range start' stop' closed' =>
      if closed != closed' then unrelated operator
      else if operator = .equal then some (.bool (start = start' ∧ stop = stop'))
      else if operator = .differ then some (.bool (start ≠ start' ∨ stop ≠ stop'))
      else none
  | _, _ => if first.kind = second.kind then none else unrelated operator

mutual

/-- Whether two values are the same. Arrays are if their items are. -/
def same : Value → Value → Bool
  | .array first, .array second => sameAll first second
  | first, second =>
      match direct .equal first second with
      | some (.bool result) => result
      | _ => false

def sameAll : List Value → List Value → Bool
  | [], [] => true
  | first :: firsts, second :: seconds => same first second && sameAll firsts seconds
  | _, _ => false

end

/-- The result of an operator that is a function: anything can be joined to a text, and arrays can
be joined and compared. -/
def supplied (operator : Operator) (first second : Value) : Option Value :=
  match operator, first, second with
  | .add, .array left, .array right => some (.array (left ++ right))
  | .equal, .array left, .array right => some (.bool (sameAll left right))
  | .differ, .array left, .array right => some (.bool (!sameAll left right))
  | .add, .text left, _ => some (.text (left ++ shown second))
  | .add, _, .text right => some (.text (shown first ++ right))
  | _, _, _ => none

/-- What stands where `first` stood after an operator has been assigned, and how many functions that
takes. An array takes up the items of an array and everything else as one item. -/
def assigned (operator : Operator) (first second : Value) : Option (Value × Nat) :=
  match operator, first, second with
  | .add, .array left, .array right => some (.array (left ++ right), 0)
  | .add, .array left, _ => some (.array (left ++ [second]), 0)
  | _, _, _ =>
      match direct operator first second, supplied operator first second with
      | some value, _ => some (value, 0)
      | none, some value =>
          some (value, match first with
            | .text _ => 1
            | _ => 2)
      | none, none => none

def negate : Value → Option Value
  | .int value => int? (-value)
  | .float value => some (.float (-value))
  | _ => none

/-- The place in a list that an index means; negative indices count from the end. -/
def place? (length : Nat) (index : Int) : Option Nat :=
  if 0 ≤ index then if index < length then some index.toNat else none
  else if index.natAbs ≤ length then some (length - index.natAbs)
  else none

def index? : Value → Value → Option Value
  | .array items, .int index => (place? items.length index).bind fun place => items[place]?
  | .text content, .int index =>
      (place? content.length index).bind fun place => content.toList[place]?.map .char
  | .int number, .int index =>
      (place? 64 index).map fun place => .bool ((BitVec.ofInt 64 number).getLsbD place)
  | _, _ => none

/-- A value in which the part at the end of a path of indices has become another. -/
def update (change : Value → Option Value) : List Value → Value → Option Value
  | [], value => change value
  | .int index :: path, .array items =>
      match place? items.length index with
      | none => none
      | some place =>
          match items[place]? with
          | none => none
          | some item => (update change path item).map fun item => .array (items.set place item)
  | [.int index], .text content =>
      match place? content.length index with
      | none => none
      | some place =>
          match content.toList[place]?.bind fun c => change (.char c) with
          | some (.char c) => some (.text (String.ofList (content.toList.set place c)))
          | _ => none
  | [.int index], .int number =>
      match place? 64 index with
      | none => none
      | some place =>
          let bits := BitVec.ofInt 64 number
          let bit := BitVec.ofNat 64 1 <<< place
          match change (.bool (bits.getLsbD place)) with
          | some (.bool true) => some (.int (bits ||| bit).toInt)
          | some (.bool false) => some (.int (bits &&& ~~~bit).toInt)
          | _ => none
  | _, _ => none

def length? : Value → Option Nat
  | .array items => some items.length
  | .text content => some content.length
  | _ => none

/-- Whether an array holds a value, a text a part, or a range a number. -/
def contains? : Value → Value → Option Bool
  | .array items, value => some (items.any (same value))
  | .text content, .text part => some (part = "" ∨ 1 < (content.splitOn part).length)
  | .text content, .char c => some (content.toList.contains c)
  | .range first last closed, .int number =>
      some (first ≤ number ∧ (if closed then number ≤ last else number < last))
  | _, _ => none

/-- The values that a loop goes through, but not more than `limit`. -/
def items? (limit : Nat) : Value → Option (List Value)
  | .array items => some items
  | .text content => some (content.toList.map .char)
  | .range first last closed =>
      let count := (last - first + (if closed then 1 else 0)).toNat
      some ((List.range (min count limit)).map fun (step : Nat) => .int (first + step))
  | _ => none

end Value

end Dabara.Script
