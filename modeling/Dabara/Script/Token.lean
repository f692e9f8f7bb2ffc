import Dabara.Text.Bytes
import Dabara.Text.Decimal

set_option autoImplicit false

namespace Dabara.Script

inductive Token
  | word (name : String)
  | int (number : Int)
  | float (number : Float)
  | text (content : String)
  | char (content : Char)
  | sign (name : String)

/-- A place in a script: the number of lines above it, and of characters before it in its line. -/
structure Position where
  line : Nat
  column : Nat

namespace Position

def start : Position :=
  ⟨0, 0⟩

def add (position : Position) (count : Nat) : Position :=
  { position with column := position.column + count }

def nextLine (position : Position) : Position :=
  ⟨position.line + 1, 0⟩

def behind (position : Position) (c : Char) : Position :=
  if c = '\n' then position.nextLine else position.add 1

end Position

namespace Token

/-- What was read from the front of a text: a token, if there was one, with the position and the
text behind it. -/
structure Piece where
  token : Option Token
  position : Position
  rest : Text

def isBlank (c : Char) : Bool :=
  c == ' ' || c == '\t' || c == '\n' || c == '\x0c' || c == '\r'

def isSpace (c : Char) : Bool :=
  c == ' ' || (9 ≤ c.toNat && c.toNat ≤ 13) || c.toNat == 0x85 || c.toNat == 0xa0 ||
    c.toNat == 0x1680 || (0x2000 ≤ c.toNat && c.toNat ≤ 0x200a) || c.toNat == 0x2028 ||
    c.toNat == 0x2029 || c.toNat == 0x202f || c.toNat == 0x205f || c.toNat == 0x3000

def startsWord (c : Char) : Bool :=
  c.isAlpha || c == '_'

def continuesWord (c : Char) : Bool :=
  startsWord c || c.isDigit

/-- Signs that have a meaning, longer ones first. -/
def signs : List Text :=
  ["**=".toList, "<<=".toList, ">>=".toList, "..=".toList, "==".toList, "!=".toList, "<=".toList,
    ">=".toList, "&&".toList, "||".toList, "+=".toList, "-=".toList, "*=".toList, "/=".toList,
    "%=".toList, "&=".toList, "|=".toList, "^=".toList, "**".toList, "<<".toList, ">>".toList,
    "..".toList, "??".toList, "+".toList, "-".toList, "*".toList, "/".toList, "%".toList,
    "&".toList, "|".toList, "^".toList, "=".toList, "<".toList, ">".toList, "!".toList,
    "(".toList, ")".toList, "[".toList, "]".toList, "\x7b".toList, "\x7d".toList, ",".toList,
    ";".toList, ".".toList]

/-- Signs set aside, which no script may hold. -/
def reservedSigns : List Text :=
  ["===".toList, "!==".toList, "...".toList, "..<".toList, "++".toList, "--".toList, "->".toList,
    "<-".toList, "<|".toList, "|>".toList, "=>".toList, "(*".toList, "*)".toList, "!.".toList]

/-- Signs behind which a number may carry its own minus sign. -/
def signsBeforeOperand : List String :=
  [";", ",", "??", "..", "..=", "\x7b", "(", "[", "+", "+=", "-", "-=", "*", "*=", "/", "/=", "%",
    "%=", "**", "**=", "<<", "<<=", ">>", ">>=", "=", "==", "!=", "<", "<=", ">", ">=", "!", "|",
    "|=", "&", "&=", "^", "^=", "&&", "||", "!in"]

/-- Words behind which a number may carry its own minus sign. -/
def wordsBeforeOperand : List String :=
  ["if", "while", "until", "in", "return", "throw"]

/-- Whether an operand may come next, so that a minus sign can only belong to it. -/
def beforeOperand : Token → Bool
  | .sign name => signsBeforeOperand.contains name
  | .word name => wordsBeforeOperand.contains name
  | _ => false

def skipLine : Position → Text → Position × Text
  | position, [] => (position, [])
  | position, '\r' :: '\n' :: rest => (position.nextLine, rest)
  | position, c :: rest =>
      if c = '\n' ∨ c = '\r' then (position.nextLine, rest) else skipLine (position.add 1) rest

/-- What is behind a comment whose `depth` openings have been read. -/
def skipComment : Nat → Position → Text → Position × Text
  | 0, position, rest => (position, rest)
  | _ + 1, position, [] => (position, [])
  | depth + 1, position, '*' :: '/' :: rest => skipComment depth (position.add 2) rest
  | depth + 1, position, '/' :: '*' :: rest => skipComment (depth + 2) (position.add 2) rest
  | depth + 1, position, c :: rest => skipComment (depth + 1) (position.behind c) rest

def hexDigit? (c : Char) : Option Nat :=
  if c.isDigit then some (c.toNat - '0'.toNat)
  else if 'a' ≤ c ∧ c ≤ 'f' then some (c.toNat - 'a'.toNat + 10)
  else if 'A' ≤ c ∧ c ≤ 'F' then some (c.toNat - 'A'.toNat + 10)
  else none

def digits? (base : Nat) (text : Text) : Option Nat :=
  text.foldlM (fun number c =>
    match hexDigit? c with
    | some digit => if digit < base then some (number * base + digit) else none
    | none => none) 0

def codePoint? (text : Text) : Option Char :=
  match digits? 16 text with
  | some number => if number.isValidChar then some (Char.ofNat number) else none
  | none => none

def escaped? (quote c : Char) : Option Char :=
  if c = 'n' then some '\n'
  else if c = 't' then some '\t'
  else if c = 'r' then some '\r'
  else if c = '\\' ∨ c = quote then some c
  else none

/-- What stands between quotes, from behind the first one, with the position and the text behind the
last one; `body` is what has been read, the latest first. A quote written twice stands for itself.
In a text that may be `continued`, a backslash at the end of a line joins it to the next; from then
on spaces are left out up to the column `margin` until another character comes. -/
def quotedBody (quote : Char) (continued : Bool) (margin : Nat) :
    Bool → Position → Text → Text → Option (Text × Position × Text)
  | _, _, _, [] => none
  | skipping, position, body, '\\' :: 'x' :: a :: b :: rest =>
      match codePoint? [a, b] with
      | some c => quotedBody quote continued margin skipping (position.add 4) (c :: body) rest
      | none => none
  | skipping, position, body, '\\' :: 'u' :: a :: b :: c :: d :: rest =>
      match codePoint? [a, b, c, d] with
      | some c => quotedBody quote continued margin skipping (position.add 6) (c :: body) rest
      | none => none
  | skipping, position, body, '\\' :: 'U' :: a :: b :: c :: d :: e :: f :: g :: h :: rest =>
      match codePoint? [a, b, c, d, e, f, g, h] with
      | some c => quotedBody quote continued margin skipping (position.add 10) (c :: body) rest
      | none => none
  | _, position, body, '\\' :: '\r' :: '\n' :: rest =>
      if continued then quotedBody quote continued margin true position.nextLine body rest else none
  | skipping, position, body, '\\' :: c :: rest =>
      if c = '\n' then
        if continued then quotedBody quote continued margin true position.nextLine body rest else none
      else
        match escaped? quote c with
        | some c => quotedBody quote continued margin skipping (position.add 2) (c :: body) rest
        | none => none
  | _, _, _, '\r' :: '\n' :: _ => none
  | skipping, position, body, c :: rest =>
      if c = quote then
        match rest with
        | d :: after =>
            if d = quote then quotedBody quote continued margin false (position.add 2) (c :: body) after
            else some (body.reverse, position.add 1, rest)
        | [] => some (body.reverse, position.add 1, [])
      else if c = '\n' then none
      else if skipping && isSpace c && position.column ≤ margin then
        quotedBody quote continued margin skipping (position.add 1) body rest
      else quotedBody quote continued margin false (position.add 1) (c :: body) rest

def longQuote : Char :=
  Char.ofNat 96

/-- What stands between long quotes, from behind the first one, with the position and the text
behind the last one. A quote written twice stands for itself, and nothing else has a special
meaning; values cannot be set into the text. -/
def longBody : Position → Text → Text → Option (Text × Position × Text)
  | _, _, [] => none
  | position, body, '\r' :: '\n' :: rest => longBody position.nextLine ('\n' :: body) rest
  | _, _, '$' :: '\x7b' :: _ => none
  | position, body, c :: rest =>
      if c = longQuote then
        match rest with
        | d :: after =>
            if d = longQuote then longBody (position.add 2) (c :: body) after
            else some (body.reverse, position.add 1, rest)
        | [] => some (body.reverse, position.add 1, [])
      else longBody (position.behind c) (c :: body) rest

/-- A text between long quotes, from behind the first one. A line end there is left out. -/
def longText (position : Position) : Text → Option (Text × Position × Text)
  | '\r' :: '\n' :: rest => longBody position.nextLine [] rest
  | '\r' :: rest => longBody position.nextLine [] rest
  | '\n' :: rest => longBody position.nextLine [] rest
  | rest => longBody position [] rest

/-- Digits of a number, which underscores may group. -/
def isGroupedDigit (c : Char) : Bool :=
  c.isDigit || c == '_'

structure Lexeme where
  token : Token
  length : Nat

/-- A number in a base, from behind the letter that names it. Its digits are the bits of an integer,
so the upper half of them stands for negative numbers. -/
def basedNumber (base : Nat) (rest : Text) : Option Lexeme :=
  let body := rest.takeWhile fun c => c == '_' || (hexDigit? c).any (· < base)
  let digits := body.filter (· ≠ '_')
  match digits? base digits with
  | some number =>
      if digits = [] ∨ 18446744073709551616 ≤ number then none
      else
        let value : Int :=
          if number < 9223372036854775808 then number else number - 18446744073709551616
        some ⟨.int value, body.length⟩
  | none => none

/-- The number `digits · 10 ^ power`. Beyond four hundred places it is infinite or nothing. -/
def scaled (digits : Nat) (power : Int) : Float :=
  let places : Int := power + (Nat.toDigits 10 digits).length
  if digits = 0 ∨ places < -400 then 0.0
  else if 400 < places then 1.0 / 0.0
  else Float.ofScientific digits (power < 0) power.natAbs

/-- The part of a number behind its point: the point has digits behind it, or something that can
neither be a name nor another point. -/
def fraction? : Text → Option Text
  | '.' :: c :: rest =>
      if c.isDigit then some ((c :: rest).takeWhile isGroupedDigit)
      else if startsWord c ∨ c = '.' then none
      else some []
  | _ => none

/-- The sign and the digits of an exponent, from behind its letter; nothing behind the sign is a
mistake. -/
def exponent (rest : Text) : Option (Int × Nat) :=
  let sign := rest.head?.any fun c => c == '+' || c == '-'
  let body := (rest.drop sign.toNat).takeWhile isGroupedDigit
  match digits? 10 (body.filter (· ≠ '_')) with
  | some number =>
      if body.all (· == '_') then none
      else some (if rest.head? = some '-' then -number else number, sign.toNat + body.length)
  | none => none

/-- A decimal number. A whole one that does not fit becomes a floating one. -/
def decimalNumber (negative : Bool) (text : Text) : Option Lexeme :=
  let whole := text.takeWhile isGroupedDigit
  let behindWhole := text.dropWhile isGroupedDigit
  let part := fraction? behindWhole
  let pointed := match part with
    | some places => 1 + places.length
    | none => 0
  let places := (part.getD []).filter (· ≠ '_')
  let behind := behindWhole.drop pointed
  let raised := match behind with
    | 'e' :: c :: _ => c.isDigit || c == '+' || c == '-'
    | _ => false
  let signed := fun (number : Float) => if negative then -number else number
  match digits? 10 (whole.filter (· ≠ '_') ++ places) with
  | none => none
  | some digits =>
      if raised then
        match exponent (behind.drop 1) with
        | some (power, length) =>
            some ⟨.float (signed (scaled digits (power - places.length))),
              whole.length + pointed + 1 + length⟩
        | none => none
      else if part.isSome then
        some ⟨.float (signed (scaled digits (-places.length))), whole.length + pointed⟩
      else
        let number : Int := if negative then -digits else digits
        if -9223372036854775808 ≤ number ∧ number ≤ 9223372036854775807 then
          some ⟨.int number, whole.length⟩
        else some ⟨.float (signed (scaled digits 0)), whole.length⟩

def base? (c : Char) : Option Nat :=
  if c = 'x' ∨ c = 'X' then some 16
  else if c = 'o' ∨ c = 'O' then some 8
  else if c = 'b' ∨ c = 'B' then some 2
  else none

/-- A number in any base. One in another base than ten has no minus sign of its own. -/
def number? (negative : Bool) (text : Text) : Option Lexeme :=
  let whole := text.takeWhile isGroupedDigit
  match (text.drop whole.length).head?.bind base? with
  | some base =>
      if whole.filter (· ≠ '_') ≠ ['0'] then decimalNumber negative text
      else if negative then none
      else
        (basedNumber base (text.drop (whole.length + 1))).map fun found =>
          ⟨found.token, whole.length + 1 + found.length⟩
  | none => decimalNumber negative text

def sign? (text : Text) : Option Lexeme :=
  if reservedSigns.any (·.isPrefixOf text) then none
  else if "!in".toList.isPrefixOf text && !((text.drop 3).head?.any continuesWord) then
    some ⟨.sign "!in", 3⟩
  else
    (signs.find? (·.isPrefixOf text)).map fun found =>
      ⟨.sign (String.ofList found), found.length⟩

/-- Whether a word can be a name: the first character that is no underscore is a letter. -/
def isName (word : Text) : Bool :=
  (word.dropWhile (· == '_')).head?.any Char.isAlpha

/-- The piece at the front of `c :: rest`. A minus sign belongs to the number behind it only where
an operand may come. -/
def front (operandNext : Bool) (position : Position) (c : Char) (rest : Text) : Option Piece :=
  let piece := fun (found : Lexeme) (signs : Nat) =>
    Piece.mk (some found.token) (position.add (signs + found.length))
      ((c :: rest).drop (signs + found.length))
  if isBlank c then some ⟨none, position.behind c, rest⟩
  else if c = '/' ∧ rest.head? = some '/' then
    let (position, rest) := skipLine (position.add 2) rest.tail
    some ⟨none, position, rest⟩
  else if c = '/' ∧ rest.head? = some '*' then
    let (position, rest) := skipComment 1 (position.add 2) rest.tail
    some ⟨none, position, rest⟩
  else if startsWord c then
    let name := c :: rest.takeWhile continuesWord
    if isName name then
      some ⟨some (.word (String.ofList name)), position.add name.length, rest.dropWhile continuesWord⟩
    else none
  else if c.isDigit then (number? false (c :: rest)).map (piece · 0)
  else if c = '-' ∧ operandNext ∧ rest.head?.any Char.isDigit then
    (number? true rest).map (piece · 1)
  else if c = '"' then
    (quotedBody '"' true position.column false (position.add 1) [] rest).map
      fun (body, position, rest) => ⟨some (.text (String.ofList body)), position, rest⟩
  else if c = longQuote then
    (longText (position.add 1) rest).map fun (body, position, rest) =>
      ⟨some (.text (String.ofList body)), position, rest⟩
  else if c = '\'' then
    if rest.head? = some '\'' then none
    else
      match quotedBody '\'' false position.column false (position.add 1) [] rest with
      | some ([only], position, rest) => some ⟨some (.char only), position, rest⟩
      | _ => none
  else (sign? (c :: rest)).map (piece · 0)

structure Placed where
  token : Token
  position : Position

/-- The tokens of a text behind those in `found`, of which the latest comes first; they are read in
at most `rounds` steps. -/
def readFor : Nat → Bool → Position → List Placed → Text → Option (List Placed)
  | _, _, _, found, [] => some found.reverse
  | 0, _, _, _, _ => none
  | rounds + 1, operandNext, position, found, c :: rest =>
      match front operandNext position c rest with
      | none => none
      | some ⟨none, behind, rest⟩ => readFor rounds operandNext behind found rest
      | some ⟨some token, behind, rest⟩ =>
          readFor rounds token.beforeOperand behind (⟨token, position⟩ :: found) rest

/-- The tokens of a script, unless some part of it is none. Each step takes at least one
character, so the length of the text bounds their number. -/
def read (source : Text) : Option (List Placed) :=
  readFor source.length true .start [] source

end Token

end Dabara.Script
