import Dabara.Token

set_option autoImplicit false

namespace Dabara.Markup

def escapeChar : Char → Text
  | '&' => "&amp;".toList
  | '<' => "&lt;".toList
  | '>' => "&gt;".toList
  | c => [c]

/-- A text as it is written in markup. Quotes are kept as they are. -/
def escape (text : Text) : Text :=
  text.flatMap escapeChar

def defaultClassPrefix : String :=
  "syn-"

/-- An element of a class around a text. -/
def element (classPrefix : Text) (cssClass : String) (text : Text) : Text :=
  "<span class=\"".toList ++ escape classPrefix ++ cssClass.toList ++ "\">".toList ++
    escape text ++ "</span>".toList

def renderFragment (classPrefix : Text) (fragment : Fragment) : Text :=
  match fragment.category.cssClass with
  | some cssClass => element classPrefix cssClass fragment.text
  | none => escape fragment.text

/-- Fragments as markup. The line feed behind them makes an overlay as tall as the surface it lies
under. -/
def render (classPrefix : Text) (parts : List Fragment) : Text :=
  parts.flatMap (renderFragment classPrefix) ++ ['\n']

/-- A source as markup with the usual class prefix. -/
def highlight (source : Text) : Text :=
  render defaultClassPrefix.toList (fragments source)

@[simp] theorem escape_nil : escape [] = [] := rfl

@[simp] theorem escape_append (first second : Text) :
    escape (first ++ second) = escape first ++ escape second := by
  simp [escape]

end Dabara.Markup
