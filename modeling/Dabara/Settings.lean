import Dabara.Markup
import Dabara.Theme.Builtin

set_option autoImplicit false

namespace Dabara

structure Settings where
  theme : String
  lineNumbers : Bool
  classPrefix : String
  tabWidth : Nat
  deriving DecidableEq

/-- One change of the settings. -/
inductive Setting
  | theme (name : String)
  | tabWidth (width : Int)
  | classPrefix (text : String)
  | lineNumbers (shown : Bool)
  deriving DecidableEq

namespace Settings

/-- The settings in force when nothing has been set. -/
def usual : Settings where
  theme := Theme.usual.name
  lineNumbers := true
  classPrefix := Markup.defaultClassPrefix
  tabWidth := 2

/-- A tab width brought between one and sixteen. -/
def clampTab (width : Int) : Nat :=
  (max 1 (min width 16)).toNat

def apply (settings : Settings) : Setting → Settings
  | .theme name => { settings with theme := name }
  | .tabWidth width => { settings with tabWidth := clampTab width }
  | .classPrefix text => { settings with classPrefix := text }
  | .lineNumbers shown => { settings with lineNumbers := shown }

def applyAll (settings : Settings) (changes : List Setting) : Settings :=
  changes.foldl apply settings

@[simp] theorem applyAll_cons (settings : Settings) (change : Setting) (rest : List Setting) :
    settings.applyAll (change :: rest) = (settings.apply change).applyAll rest := rfl

theorem applyAll_append (settings : Settings) (first second : List Setting) :
    settings.applyAll (first ++ second) = (settings.applyAll first).applyAll second := by
  simp [applyAll]

end Settings

end Dabara
