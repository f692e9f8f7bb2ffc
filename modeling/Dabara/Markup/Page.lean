import Dabara.Markup
import Dabara.Theme

set_option autoImplicit false

namespace Dabara.Markup

/-- The page around some markup. The title is escaped; the class prefix is written as it is. -/
def page (theme : Theme) (classPrefix title markup : Text) : Text :=
  "<!DOCTYPE html>\n<html lang=\"ha\">\n<head>\n<meta charset=\"utf-8\">\n<title>".toList ++
    escape title ++ "</title>\n<style>\n".toList ++ theme.stylesheet classPrefix ++
    "pre \x7b margin: 0; padding: 1em; font-family: monospace; \x7d\n".toList ++
    "</style>\n</head>\n<body>\n<pre class=\"".toList ++ classPrefix ++ "code\">".toList ++
    markup ++ "</pre>\n</body>\n</html>\n".toList

end Dabara.Markup
