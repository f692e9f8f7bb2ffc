set_option autoImplicit false

namespace Dabara

inductive Category
  | comment
  | string
  | number
  | keyword
  | declaration
  | boolean
  | builtin
  | functionCall
  | methodCall
  | operator
  | bracket
  | plain
  deriving DecidableEq

namespace Category

/-- All categories, in the order in which they are listed and styled. -/
def all : List Category :=
  [comment, string, number, keyword, declaration, boolean, builtin, functionCall, methodCall,
    operator, bracket, plain]

def name : Category → String
  | comment => "comment"
  | string => "string"
  | number => "number"
  | keyword => "keyword"
  | declaration => "declaration"
  | boolean => "boolean"
  | builtin => "builtin"
  | functionCall => "function-call"
  | methodCall => "method-call"
  | operator => "operator"
  | bracket => "bracket"
  | plain => "plain"

def ofName? (text : String) : Option Category :=
  all.find? (·.name = text)

/-- The class of a category in markup and stylesheets; plain text has none. -/
def cssClass : Category → Option String
  | comment => some "comment"
  | string => some "string"
  | number => some "number"
  | keyword => some "keyword"
  | declaration => some "variable"
  | boolean => some "boolean"
  | builtin => some "builtin"
  | functionCall => some "function"
  | methodCall => some "method"
  | operator => some "operator"
  | bracket => some "bracket"
  | plain => none

def isPlain (category : Category) : Bool :=
  category = plain

theorem cssClass_eq_none_iff (category : Category) :
    category.cssClass = none ↔ category = plain := by
  cases category <;> simp [cssClass]

end Category

end Dabara
