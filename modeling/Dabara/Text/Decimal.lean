import Dabara.Text.Bytes

set_option autoImplicit false

namespace Dabara

/-- The number `digits · 10 ^ power`. -/
structure Decimal where
  digits : Nat
  power : Int
  deriving DecidableEq

/-- A finite floating point number without its sign: `mantissa · 2 ^ power`. In `narrow` numbers the
neighbour below is only half as far away as the neighbour above. -/
structure Binary where
  mantissa : Nat
  power : Int
  narrow : Bool

namespace Binary

def ofFloat? (number : Float) : Option Binary :=
  let bits := number.toBits.toNat
  let exponent := bits / 4503599627370496 % 2048
  let fraction := bits % 4503599627370496
  if exponent = 2047 then none
  else if exponent = 0 then some ⟨fraction, -1074, false⟩
  else some ⟨4503599627370496 + fraction, (exponent : Int) - 1075, fraction = 0 ∧ 1 < exponent⟩

def toFloat (parts : Binary) : Float :=
  (Float.ofNat parts.mantissa).scaleB parts.power

/-- What is left of one number after another is taken away as often as it goes, exactly. -/
def remainder (first second : Binary) : Binary :=
  let power := min first.power second.power
  let aligned := fun (parts : Binary) =>
    parts.mantissa * Nat.pow 2 (parts.power - power).toNat
  ⟨aligned first % aligned second, power, false⟩

end Binary

namespace Decimal

def trim : Nat → Decimal → Decimal
  | 0, decimal => decimal
  | rounds + 1, decimal =>
      if decimal.digits ≠ 0 ∧ decimal.digits % 10 = 0 then
        trim rounds ⟨decimal.digits / 10, decimal.power + 1⟩
      else decimal

/-- The decimals that read back as `value / unit`, among those with spacing `1 / scale`: the nearer
one of the two next to the value that lies between `low` and `high`. -/
def nearest? (low value high unit scale : Nat) (closed : Bool) : Option Nat :=
  let below := value * scale / unit
  let above := below + 1
  let fitsBelow := if closed then low * scale ≤ below * unit else low * scale < below * unit
  let fitsAbove := if closed then above * unit ≤ high * scale else above * unit < high * scale
  if fitsBelow ∧ fitsAbove then
    some (if value * scale - below * unit ≤ above * unit - value * scale then below else above)
  else if fitsBelow then some below
  else if fitsAbove then some above
  else none

/-- The first decimal found with `count` digits, then with one more, and so on. -/
def search (low value high unit : Nat) (closed : Bool) (places : Int) : Nat → Nat → Decimal
  | 0, count => ⟨value * Nat.pow 10 (count - places).toNat / unit, places - count⟩
  | rounds + 1, count =>
      let power := (count : Int) - places
      let found :=
        if 0 ≤ power then nearest? low value high unit (Nat.pow 10 power.toNat) closed
        else nearest? low value high (unit * Nat.pow 10 power.natAbs) 1 closed
      match found with
      | some digits => trim digits ⟨digits, -power⟩
      | none => search low value high unit closed places rounds (count + 1)

/-- The shortest decimal of a number without its sign. Seventeen digits always suffice. -/
def ofBinary (parts : Binary) : Decimal :=
  if parts.mantissa = 0 then ⟨0, 0⟩
  else
    let factor := Nat.pow 2 parts.power.toNat
    let unit := 4 * Nat.pow 2 (-parts.power).toNat
    let value := 4 * parts.mantissa * factor
    let low := (4 * parts.mantissa - (if parts.narrow then 1 else 2)) * factor
    let high := (4 * parts.mantissa + 2) * factor
    let places : Int := (Nat.toDigits 10 (value * Nat.pow 10 400 / unit)).length - 400
    search low value high unit (parts.mantissa % 2 = 0) places 17 1

/-- All digits, with a point and zeros where they are needed. -/
def positional (decimal : Decimal) : Text :=
  let digits := Nat.toDigits 10 decimal.digits
  if 0 ≤ decimal.power then digits ++ List.replicate decimal.power.toNat '0'
  else
    let places := decimal.power.natAbs
    let padded := List.replicate (places + 1 - digits.length) '0' ++ digits
    padded.take (padded.length - places) ++ '.' :: padded.drop (padded.length - places)

/-- One digit, the others behind a point, and the power of ten. -/
def scientific (decimal : Decimal) : Text :=
  let digits := Nat.toDigits 10 decimal.digits
  let power : Int := decimal.power + digits.length - 1
  let sign : Text := if power < 0 then ['-'] else []
  let others := digits.drop 1
  digits.take 1 ++ (if others = [] then [] else '.' :: others) ++ 'e' ::
    (sign ++ Nat.toDigits 10 power.natAbs)

end Decimal

/-- When a number is written with all its digits: from `least` on and up to `greatest`, or only
below `greatest` if it is `excluded`. Whole numbers then end in a point and a zero. -/
structure FloatFormat where
  least : Float
  greatest : Float
  excluded : Bool

namespace FloatFormat

def plain : FloatFormat :=
  ⟨0.0000000000001, 10000000000000.0, false⟩

def item : FloatFormat :=
  ⟨0.00001, 10000000000000000.0, true⟩

def write (format : FloatFormat) (number : Float) : String :=
  let sign : Text := if number < 0.0 then ['-'] else []
  match Binary.ofFloat? number with
  | none => if number == number then String.ofList (sign ++ "inf".toList) else "NaN"
  | some parts =>
      let decimal := Decimal.ofBinary parts
      let size := number.abs
      let within :=
        format.least ≤ size ∧
          (if format.excluded then size < format.greatest else size ≤ format.greatest)
      if parts.mantissa = 0 then "0.0"
      else if within then
        String.ofList (sign ++ decimal.positional ++ (if decimal.power < 0 then [] else ".0".toList))
      else String.ofList (sign ++ decimal.scientific)

end FloatFormat

end Dabara
