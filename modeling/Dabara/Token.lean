import Dabara.Alphabet

set_option autoImplicit false

namespace Dabara

structure Fragment where
  category : Category
  text : Text
  deriving DecidableEq

/-- A fragment with the byte offset at which it stands in its source. -/
structure Token extends Fragment where
  start : Nat
  deriving DecidableEq

def Token.stop (token : Token) : Nat :=
  token.start + byteLength token.text

namespace Fragment

/-- Characters of a number; a number may hold any count of dots. -/
def isNumberChar (c : Char) : Bool :=
  c.isDigit || c == '.'

/-- Signs that join a following equals sign to one operator. -/
def isComparison (c : Char) : Bool :=
  c == '=' || c == '!' || c == '<' || c == '>'

def isOperator (c : Char) : Bool :=
  c == '=' || c == '<' || c == '>' || c == '+' || c == '-' || c == '*' || c == '/'

def isBracket (c : Char) : Bool :=
  c == '(' || c == ')' || c == '\x7b' || c == '\x7d' || c == '[' || c == ']'

def startsWith (holds : Char → Bool) : Text → Bool
  | [] => false
  | c :: _ => holds c

/-- Whether a text is an opening parenthesis behind any number of spaces. -/
def opensCall (rest : Text) : Bool :=
  startsWith (· == '(') (rest.dropWhile (· == ' '))

/-- Category of a whole word before `rest`. -/
def wordCategory (word rest : Text) : Category :=
  (reservedCategory word).getD (if opensCall rest then .functionCall else .plain)

/-- The fragment of `first` and the run of a class behind it, with what follows. -/
def run (category : Category) (holds : Char → Bool) (first : Char) (rest : Text) :
    List Fragment × Text :=
  ([⟨category, first :: rest.takeWhile holds⟩], rest.dropWhile holds)

/-- A string whose opening quote has been read: through the next quote, or to the end. -/
def quoted (rest : Text) : List Fragment × Text :=
  let body := rest.takeWhile (· != '"')
  match rest.dropWhile (· != '"') with
  | [] => ([⟨.string, '"' :: body⟩], [])
  | quote :: after => ([⟨.string, '"' :: body ++ [quote]⟩], after)

def word (first : Char) (rest : Text) : List Fragment × Text :=
  let text := first :: rest.takeWhile isIdentChar
  let after := rest.dropWhile isIdentChar
  ([⟨wordCategory text after, text⟩], after)

/-- A dot and the method name behind it. -/
def method (rest : Text) : List Fragment × Text :=
  ([⟨.operator, ['.']⟩, ⟨.methodCall, rest.takeWhile isIdentChar⟩], rest.dropWhile isIdentChar)

/-- The fragments at the front of `c :: rest` and what follows them. A dot before a name gives two
fragments, all else gives one. -/
def front (c : Char) (rest : Text) : List Fragment × Text :=
  if c = '#' then run .comment (· != '\n') c rest
  else if c = '"' then quoted rest
  else if c.isDigit || (c == '.' && startsWith Char.isDigit rest) then
    run .number isNumberChar c rest
  else if isIdentStart c then word c rest
  else if c == '.' && startsWith isIdentStart rest then method rest
  else if isComparison c && startsWith (· == '=') rest then ([⟨.operator, [c, '=']⟩], rest.tail)
  else if isOperator c then ([⟨.operator, [c]⟩], rest)
  else if isBracket c then ([⟨.bracket, [c]⟩], rest)
  else ([⟨.plain, [c]⟩], rest)

theorem length_dropWhile_le (holds : Char → Bool) (text : Text) :
    (text.dropWhile holds).length ≤ text.length :=
  (List.dropWhile_suffix holds).length_le

theorem length_quoted_le (rest : Text) : (quoted rest).2.length ≤ rest.length := by
  have bound := length_dropWhile_le (· != '"') rest
  unfold quoted
  dsimp only
  split
  · simp
  · next shape =>
      rw [shape] at bound
      simp only [List.length_cons] at bound ⊢
      omega

theorem length_front_le (c : Char) (rest : Text) : (front c rest).2.length ≤ rest.length := by
  have shorter : ∀ holds : Char → Bool, (rest.dropWhile holds).length ≤ rest.length :=
    fun holds => length_dropWhile_le holds rest
  unfold front
  repeat' split
  · exact shorter _
  · exact length_quoted_le rest
  · exact shorter _
  · exact shorter _
  · exact shorter _
  · simp only [List.length_tail]; omega
  all_goals exact Nat.le_refl _

/-- The text of fragments put together again. -/
def join (parts : List Fragment) : Text :=
  parts.flatMap Fragment.text

@[simp] theorem join_nil : join [] = [] := rfl

@[simp] theorem join_cons (fragment : Fragment) (rest : List Fragment) :
    join (fragment :: rest) = fragment.text ++ join rest := rfl

@[simp] theorem join_append (first second : List Fragment) :
    join (first ++ second) = join first ++ join second := by
  simp [join]

theorem join_quoted (rest : Text) :
    join (quoted rest).1 ++ (quoted rest).2 = '"' :: rest := by
  have whole := List.takeWhile_append_dropWhile (p := (· != '"')) (l := rest)
  unfold quoted
  dsimp only
  split
  · next shape => rw [shape, List.append_nil] at whole; simp [whole]
  · next shape => rw [shape] at whole; simp [whole]

/-- Nothing is lost or added at the front of a source. -/
theorem join_front (c : Char) (rest : Text) :
    join (front c rest).1 ++ (front c rest).2 = c :: rest := by
  unfold front
  repeat' split
  · simp [run]
  · next quote => rw [join_quoted, quote]
  · simp [run]
  · simp [word]
  · next dot =>
      simp only [Bool.and_eq_true, beq_iff_eq] at dot
      simp [method, dot.1]
  · next equals =>
      simp only [Bool.and_eq_true] at equals
      cases rest with
      | nil => simp [startsWith] at equals
      | cons d after =>
          have sign : d = '=' := by simpa [startsWith] using equals.2
          simp [sign]
  all_goals simp

end Fragment

/-- Cuts a source into fragments that cover it. None is refused: an unclosed string runs to the end,
and a character that fits no rule stands alone as plain text. -/
def fragments : Text → List Fragment
  | [] => []
  | c :: rest =>
      let cut := Fragment.front c rest
      cut.1 ++ fragments cut.2
termination_by source => source.length
decreasing_by
  have bound := Fragment.length_front_le c rest
  simp only [List.length_cons]
  omega

/-- Gives each fragment its byte offset, the first one `offset`. -/
def locate (offset : Nat) : List Fragment → List Token
  | [] => []
  | fragment :: rest =>
      ⟨fragment, offset⟩ :: locate (offset + byteLength fragment.text) rest

def scan (source : Text) : List Token :=
  locate 0 (fragments source)

@[simp] theorem fragments_nil : fragments [] = [] := by
  rw [fragments]

theorem fragments_cons (c : Char) (rest : Text) :
    fragments (c :: rest) = (Fragment.front c rest).1 ++ fragments (Fragment.front c rest).2 := by
  rw [fragments]

@[simp] theorem locate_nil (offset : Nat) : locate offset [] = [] := rfl

@[simp] theorem locate_cons (offset : Nat) (fragment : Fragment) (rest : List Fragment) :
    locate offset (fragment :: rest) =
      ⟨fragment, offset⟩ :: locate (offset + byteLength fragment.text) rest := rfl

theorem map_toFragment_locate (offset : Nat) (parts : List Fragment) :
    (locate offset parts).map Token.toFragment = parts := by
  induction parts generalizing offset with
  | nil => rfl
  | cons fragment rest ih => simp [ih]

/-- The fragments of a source put together are the source. -/
theorem join_fragments (source : Text) : Fragment.join (fragments source) = source := by
  fun_induction fragments source with
  | case1 => rfl
  | case2 c rest cut ih => rw [Fragment.join_append, ih]; exact Fragment.join_front c rest

end Dabara
