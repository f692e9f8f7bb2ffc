import Dabara.Theme

set_option autoImplicit false

namespace Dabara.Theme

/-- Shorthand of the tables below: a packed color. -/
def rgb (packed : Nat) : Color :=
  .ofPacked packed

def regular (packed : Nat) : Style :=
  .ofColor (.ofPacked packed)

def bold (packed : Nat) : Style :=
  { regular packed with bold := true }

def italic (packed : Nat) : Style :=
  { regular packed with italic := true }

def gruvboxDark : Theme where
  name := "gruvbox-dark"
  background := rgb 0x282828
  foreground := rgb 0xebdbb2
  lineNumber := rgb 0x665c54
  activeLineNumber := rgb 0xfabd2f
  statusBackground := rgb 0x3c3836
  statusForeground := rgb 0xebdbb2
  warning := rgb 0xfabd2f
  keyword := bold 0xfb4934
  declaration := bold 0x8ec07c
  boolean := regular 0xd3869b
  builtin := regular 0xfe8019
  string := regular 0xb8bb26
  number := regular 0xd3869b
  comment := italic 0x928374
  functionCall := regular 0xfabd2f
  methodCall := regular 0x83a598
  operator := regular 0xfe8019
  bracket := regular 0xebdbb2

def gruvboxLight : Theme where
  name := "gruvbox-light"
  background := rgb 0xfbf1c7
  foreground := rgb 0x3c3836
  lineNumber := rgb 0xa89984
  activeLineNumber := rgb 0xb57614
  statusBackground := rgb 0xebdbb2
  statusForeground := rgb 0x3c3836
  warning := rgb 0xb57614
  keyword := bold 0x9d0006
  declaration := bold 0x427b58
  boolean := regular 0x8f3f71
  builtin := regular 0xaf3a03
  string := regular 0x79740e
  number := regular 0x8f3f71
  comment := italic 0x928374
  functionCall := regular 0xb57614
  methodCall := regular 0x076678
  operator := regular 0xd65d0e
  bracket := regular 0x3c3836

def nord : Theme where
  name := "nord"
  background := rgb 0x2e3440
  foreground := rgb 0xd8dee9
  lineNumber := rgb 0x4c566a
  activeLineNumber := rgb 0xd8dee9
  statusBackground := rgb 0x3b4252
  statusForeground := rgb 0xd8dee9
  warning := rgb 0xebcb8b
  keyword := bold 0x81a1c1
  declaration := bold 0x8fbcbb
  boolean := regular 0xb48ead
  builtin := regular 0xd08770
  string := regular 0xa3be8c
  number := regular 0xb48ead
  comment := italic 0x616e88
  functionCall := regular 0x88c0d0
  methodCall := regular 0x8fbcbb
  operator := regular 0x81a1c1
  bracket := regular 0xeceff4

def dracula : Theme where
  name := "dracula"
  background := rgb 0x282a36
  foreground := rgb 0xf8f8f2
  lineNumber := rgb 0x6272a4
  activeLineNumber := rgb 0xf8f8f2
  statusBackground := rgb 0x44475a
  statusForeground := rgb 0xf8f8f2
  warning := rgb 0xffb86c
  keyword := bold 0xff79c6
  declaration := italic 0x8be9fd
  boolean := regular 0xbd93f9
  builtin := regular 0xffb86c
  string := regular 0xf1fa8c
  number := regular 0xbd93f9
  comment := italic 0x6272a4
  functionCall := regular 0x50fa7b
  methodCall := italic 0x50fa7b
  operator := regular 0xff79c6
  bracket := regular 0xf8f8f2

def solarizedDark : Theme where
  name := "solarized-dark"
  background := rgb 0x002b36
  foreground := rgb 0x839496
  lineNumber := rgb 0x586e75
  activeLineNumber := rgb 0x93a1a1
  statusBackground := rgb 0x073642
  statusForeground := rgb 0x839496
  warning := rgb 0xcb4b16
  keyword := bold 0x859900
  declaration := bold 0xb58900
  boolean := regular 0xd33682
  builtin := regular 0xcb4b16
  string := regular 0x2aa198
  number := regular 0xd33682
  comment := italic 0x586e75
  functionCall := regular 0x268bd2
  methodCall := regular 0x6c71c4
  operator := regular 0x859900
  bracket := regular 0x839496

/-- The themes in the order in which they are listed. -/
def builtins : List Theme :=
  [gruvboxDark, gruvboxLight, nord, dracula, solarizedDark]

def builtinNames : List String :=
  builtins.map Theme.name

/-- The theme in use when none is chosen. -/
def usual : Theme :=
  gruvboxDark

def builtin? (name : String) : Option Theme :=
  builtins.find? (·.name = name)

/-- The theme of a name, or the usual one. -/
def resolve (name : String) : Theme :=
  (builtin? name).getD usual

end Dabara.Theme
