import Dabara.Text.Bytes

set_option autoImplicit false

namespace Dabara

/-- A named program. -/
structure Sample where
  name : String
  source : String

namespace Sample

def helloSample : Sample where
  name := "hello"
  source :=
    "fara\n" ++
    "  rubuta \"Sannu, Duniya!\"\n" ++
    "ƙare"

def variablesSample : Sample where
  name := "variables"
  source :=
    "fara\n" ++
    "  var sunan = \"Musa\"\n" ++
    "  var shekara = 25\n" ++
    "  rubuta \"Suna: \" + sunan\n" ++
    "  rubuta \"Shekara: \" + shekara\n" ++
    "  rubuta sunan + \" yana da shekara \" + shekara\n" ++
    "ƙare"

def conditionsSample : Sample where
  name := "conditions"
  source :=
    "fara\n" ++
    "  var maki = 75\n" ++
    "\n" ++
    "  idan maki >= 70 \x7b\n" ++
    "    rubuta \"Ka yi nasara! Maki: \" + maki\n" ++
    "  \x7d ammaina maki >= 50 \x7b\n" ++
    "    rubuta \"Ka wuce kawai. Maki: \" + maki\n" ++
    "  \x7d amma \x7b\n" ++
    "    rubuta \"Ka kasa. Maki: \" + maki\n" ++
    "  \x7d\n" ++
    "ƙare"

def loopsSample : Sample where
  name := "loops"
  source :=
    "fara\n" ++
    "  # Buga lambobi 1 zuwa 5\n" ++
    "  var i = 1\n" ++
    "  maimaita (i <= 5) \x7b\n" ++
    "    rubuta \"Lamba: \" + i\n" ++
    "    var i = i + 1\n" ++
    "  \x7d\n" ++
    "\n" ++
    "  # For loop tare da jeri\n" ++
    "  var sunaye = [\"Musa\", \"Issa\", \"Fatima\"]\n" ++
    "  ga suna cikin sunaye \x7b\n" ++
    "    rubuta \"Sannu, \" + suna + \"!\"\n" ++
    "  \x7d\n" ++
    "ƙare"

def functionsSample : Sample where
  name := "functions"
  source :=
    "fara\n" ++
    "  aiki sallama(suna) \x7b\n" ++
    "    mayar \"Sannu, \" + suna + \"!\"\n" ++
    "  \x7d\n" ++
    "\n" ++
    "  aiki jimlar(a, b) \x7b\n" ++
    "    mayar a + b\n" ++
    "  \x7d\n" ++
    "\n" ++
    "  rubuta sallama(\"Ahmad\")\n" ++
    "  rubuta sallama(\"Fatima\")\n" ++
    "\n" ++
    "  var sakamakon = jimlar(10, 20)\n" ++
    "  rubuta \"Jimla: \" + sakamakon\n" ++
    "ƙare"

def listsSample : Sample where
  name := "lists"
  source :=
    "fara\n" ++
    "  var lambobi = [10, 20, 30, 40, 50]\n" ++
    "  rubuta \"Jeri: \" + lambobi\n" ++
    "  rubuta \"Tsawo: \" + lambobi.tsawo()\n" ++
    "\n" ++
    "  # Zagaya jerin\n" ++
    "  ga lamba cikin lambobi \x7b\n" ++
    "    rubuta \"Lamba: \" + lamba\n" ++
    "  \x7d\n" ++
    "\n" ++
    "  # Haruffan jimla\n" ++
    "  var kalma = \"Dabara\"\n" ++
    "  rubuta \"Tsawon kalma: \" + kalma.tsawo()\n" ++
    "  rubuta \"Babba: \" + kalma.babba()\n" ++
    "  rubuta \"Karami: \" + kalma.karami()\n" ++
    "ƙare"

def fibonacciSample : Sample where
  name := "fibonacci"
  source :=
    "fara\n" ++
    "  aiki fibonacci(n) \x7b\n" ++
    "    idan n <= 1 \x7b\n" ++
    "      mayar n\n" ++
    "    \x7d\n" ++
    "    mayar fibonacci(n - 1) + fibonacci(n - 2)\n" ++
    "  \x7d\n" ++
    "\n" ++
    "  var i = 0\n" ++
    "  maimaita (i < 10) \x7b\n" ++
    "    rubuta \"fib(\" + i + \") = \" + fibonacci(i)\n" ++
    "    var i = i + 1\n" ++
    "  \x7d\n" ++
    "ƙare"

/-- All programs, in the order in which they are listed. -/
def all : List Sample :=
  [helloSample, variablesSample, conditionsSample, loopsSample, functionsSample, listsSample,
    fibonacciSample]

def names : List String :=
  all.map Sample.name

def source? (name : String) : Option Text :=
  (all.find? (·.name = name)).map (·.source.toList)

end Sample

end Dabara
