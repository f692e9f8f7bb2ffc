import Dabara.Category
import Dabara.Text.Bytes

set_option autoImplicit false

namespace Dabara

/-- The hooked letters of Hausa, which names may hold beside the ASCII letters. -/
def hausaLetters : Text :=
  ['ɓ', 'ɗ', 'ƙ', 'ƴ', 'ʔ']

def isIdentStart (c : Char) : Bool :=
  c.isAlpha || c == '_' || hausaLetters.contains c

def isIdentChar (c : Char) : Bool :=
  isIdentStart c || c.isDigit

/-- Words that shape a program: its frame, conditions, loops and functions. -/
def keywords : List Text :=
  ["fara".toList, "ƙare".toList, "kare".toList, "rubuta".toList, "idan".toList, "amma".toList,
    "ammaina".toList, "maimaita".toList, "ga".toList, "cikin".toList, "katse".toList,
    "ci_gaba".toList, "aiki".toList, "mayar".toList]

def declarations : List Text :=
  ["var".toList, "naɗa".toList, "nada".toList]

def booleans : List Text :=
  ["gaskiya".toList, "karya".toList]

/-- Functions that every program has. -/
def builtins : List Text :=
  ["karɓa".toList]

/-- The category of a reserved word; other words have none of their own. -/
def reservedCategory (word : Text) : Option Category :=
  if keywords.contains word then some .keyword
  else if declarations.contains word then some .declaration
  else if booleans.contains word then some .boolean
  else if builtins.contains word then some .builtin
  else none

theorem isIdentChar_of_isIdentStart {c : Char} (starts : isIdentStart c = true) :
    isIdentChar c = true := by
  simp [isIdentChar, starts]

end Dabara
