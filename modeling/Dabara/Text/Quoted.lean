import Dabara.Text.Unseen

set_option autoImplicit false

namespace Dabara

/-- Hexadecimal digits of a number, at least `width` of them. -/
def hexDigits (width number : Nat) : Text :=
  let digits := Nat.toDigits 16 number
  List.replicate (width - digits.length) '0' ++ digits

namespace JsonString

/-- A character as it stands in a JSON string: quotes, backslashes and the characters below the
space are escaped, with a short form where there is one. -/
def escapeChar (c : Char) : Text :=
  if c = '"' then "\\\"".toList
  else if c = '\\' then "\\\\".toList
  else if c = '\n' then "\\n".toList
  else if c = '\r' then "\\r".toList
  else if c = '\t' then "\\t".toList
  else if c = '\x08' then "\\b".toList
  else if c = '\x0c' then "\\f".toList
  else if c.toNat < 32 then "\\u".toList ++ hexDigits 4 c.toNat
  else [c]

def quote (text : Text) : Text :=
  '"' :: text.flatMap escapeChar ++ ['"']

end JsonString

namespace Quoted

/-- A character as it stands between quotes. -/
def escapeChar (c : Char) : Text :=
  if c = '"' then "\\\"".toList
  else if c = '\\' then "\\\\".toList
  else if c = '\n' then "\\n".toList
  else if c = '\r' then "\\r".toList
  else if c = '\t' then "\\t".toList
  else if c = '\x00' then "\\0".toList
  else if isUnseen c then "\\u\x7b".toList ++ hexDigits 1 c.toNat ++ ['\x7d']
  else [c]

def quote (text : Text) : Text :=
  '"' :: text.flatMap escapeChar ++ ['"']

end Quoted

end Dabara
