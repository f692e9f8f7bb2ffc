import Dabara.Text.Quoted
import Dabara.Token

set_option autoImplicit false

namespace Dabara.Token

/-- One token, indented as an entry of the list. -/
def entry (token : Token) : Text :=
  "  \x7b\n    \"category\": ".toList ++ JsonString.quote token.category.name.toList ++
    ",\n    \"text\": ".toList ++ JsonString.quote token.text ++
    ",\n    \"start\": ".toList ++ Nat.toDigits 10 token.start ++ "\n  \x7d".toList

/-- All tokens as a list; no tokens give the empty list on one line. -/
def listing (tokens : List Token) : Text :=
  if tokens.isEmpty then "[]\n".toList
  else "[\n".toList ++ ",\n".toList.intercalate (tokens.map entry) ++ "\n]\n".toList

end Dabara.Token
