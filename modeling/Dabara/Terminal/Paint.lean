import Dabara.Terminal
import Dabara.Token

set_option autoImplicit false

namespace Dabara.Terminal

/-- One fragment in its style; plain text is left as the terminal has it. -/
def paintFragment (theme : Theme) (fragment : Fragment) : List Command :=
  if fragment.category.isPlain then [.print fragment.text]
  else select (theme.styleFor fragment.category) ++ [.print fragment.text, .resetStyle]

/-- A whole source in color, with a line feed behind it. -/
def paint (theme : Theme) (source : Text) : List Command :=
  (fragments source).flatMap (paintFragment theme) ++ [.print ['\n']]

end Dabara.Terminal
