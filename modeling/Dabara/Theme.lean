import Dabara.Category
import Dabara.Color

set_option autoImplicit false

namespace Dabara

/-- How text is drawn: its color, and whether it is bold or italic. -/
structure Style where
  foreground : Color
  bold : Bool
  italic : Bool
  deriving DecidableEq

namespace Style

def ofColor (color : Color) : Style :=
  ⟨color, false, false⟩

def css (style : Style) : Text :=
  "color: ".toList ++ style.foreground.css ++ ";".toList ++
    (if style.bold then " font-weight: bold;".toList else []) ++
    (if style.italic then " font-style: italic;".toList else [])

end Style

/-- The colors of the editing surface and a style for each category that has one. -/
structure Theme where
  name : String
  background : Color
  foreground : Color
  lineNumber : Color
  activeLineNumber : Color
  statusBackground : Color
  statusForeground : Color
  warning : Color
  keyword : Style
  declaration : Style
  boolean : Style
  builtin : Style
  string : Style
  number : Style
  comment : Style
  functionCall : Style
  methodCall : Style
  operator : Style
  bracket : Style
  deriving DecidableEq

namespace Theme

/-- The style of a category. Plain text has the foreground color and no attributes. -/
def styleFor (theme : Theme) : Category → Style
  | .comment => theme.comment
  | .string => theme.string
  | .number => theme.number
  | .keyword => theme.keyword
  | .declaration => theme.declaration
  | .boolean => theme.boolean
  | .builtin => theme.builtin
  | .functionCall => theme.functionCall
  | .methodCall => theme.methodCall
  | .operator => theme.operator
  | .bracket => theme.bracket
  | .plain => .ofColor theme.foreground

/-- A theme with the style of one category replaced. Plain text keeps following the foreground. -/
def withStyle (theme : Theme) (category : Category) (style : Style) : Theme :=
  match category with
  | .comment => { theme with comment := style }
  | .string => { theme with string := style }
  | .number => { theme with number := style }
  | .keyword => { theme with keyword := style }
  | .declaration => { theme with declaration := style }
  | .boolean => { theme with boolean := style }
  | .builtin => { theme with builtin := style }
  | .functionCall => { theme with functionCall := style }
  | .methodCall => { theme with methodCall := style }
  | .operator => { theme with operator := style }
  | .bracket => { theme with bracket := style }
  | .plain => theme

/-- The rule of one class, on a line of its own. -/
def rule (name declarations : Text) : Text :=
  '.' :: name ++ " \x7b ".toList ++ declarations ++ " \x7d\n".toList

/-- The stylesheet of a theme: its name, the colors of the page and one rule per class. The class
prefix is written as it is. -/
def stylesheet (theme : Theme) (classPrefix : Text) : Text :=
  "/* ".toList ++ theme.name.toList ++ " */\n".toList ++
    rule (classPrefix ++ "code".toList)
      ("background: ".toList ++ theme.background.css ++ "; color: ".toList ++
        theme.foreground.css ++ ";".toList) ++
    Category.all.flatMap fun category =>
      match category.cssClass with
      | some cssClass => rule (classPrefix ++ cssClass.toList) (theme.styleFor category).css
      | none => []

theorem styleFor_withStyle (theme : Theme) (category other : Category) (style : Style) :
    (theme.withStyle category style).styleFor other =
      if other = category ∧ category ≠ .plain then style else theme.styleFor other := by
  cases category <;> cases other <;> rfl

end Theme

end Dabara
