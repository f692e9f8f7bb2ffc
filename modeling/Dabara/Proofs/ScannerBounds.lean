import Dabara.Proofs.Grammar
import Dabara.Proofs.Segments
import Mathlib.Data.List.TakeWhile

set_option autoImplicit false

namespace Dabara

instance (text : Text) (offset : Nat) : Decidable (IsBoundary text offset) :=
  decidable_of_iff (floorBoundary text offset = offset)
    (isBoundary_iff_floorBoundary text offset).symm

/-- The text between two boundaries that are in order. -/
def slice? (text : Text) (start stop : Nat) : Option Text :=
  if start ≤ stop ∧ IsBoundary text start ∧ IsBoundary text stop then
    some (sliceBytes text start stop)
  else none

theorem slice?_append (front middle back : Text) :
    slice? (front ++ middle ++ back) (byteLength front) (byteLength (front ++ middle)) =
      some middle := by
  have ordered : byteLength front ≤ byteLength (front ++ middle) := by
    rw [byteLength_append]
    exact Nat.le_add_right _ _
  have start : IsBoundary (front ++ middle ++ back) (byteLength front) := by
    rw [List.append_assoc]
    exact isBoundary_front front (middle ++ back)
  have stop := isBoundary_front (front ++ middle) back
  rw [slice?, if_pos ⟨ordered, start, stop⟩, sliceBytes_append]

def rest? (source : Text) (position : Nat) : Option Text :=
  slice? source position (byteLength source)

theorem rest?_append (front back : Text) :
    rest? (front ++ back) (byteLength front) = some back := by
  have whole := slice?_append front back []
  rwa [List.append_nil] at whole

/-- The first offset from a boundary on at which a class of characters ends, or else the end of the
source. -/
def runStop? (source : Text) (holds : Char → Bool) (position : Nat) : Option Nat :=
  (rest? source position).map fun rest =>
    if rest.all holds then byteLength source
    else position + byteLength (rest.takeWhile holds)

theorem runStop?_append (holds : Char → Bool) (front rest : Text) :
    runStop? (front ++ rest) holds (byteLength front) =
      some (byteLength (front ++ rest.takeWhile holds)) := by
  rw [runStop?, rest?_append, Option.map_some, Option.some.injEq]
  split
  · next all => rw [List.takeWhile_eq_self_iff.mpr (List.all_eq_true.mp all)]
  · rw [byteLength_append]

namespace Token

def single? (source : Text) (category : Category) (start stop : Nat) :
    Option (List Token × Nat) :=
  (slice? source start stop).map fun text => ([⟨⟨category, text⟩, start⟩], stop)

def run? (source : Text) (category : Category) (holds : Char → Bool) (position : Nat) :
    Option (List Token × Nat) :=
  (runStop? source holds position).bind (single? source category position)

def quoted? (source : Text) (position : Nat) : Option (List Token × Nat) := do
  let body ← rest? source (position + 1)
  single? source .string position
    (if '"' ∈ body then position + 1 + byteLength (body.takeWhile (· != '"')) + 1
      else byteLength source)

/-- The token of a word. What follows is looked at only if the word is not reserved. -/
def word? (source : Text) (position : Nat) : Option (List Token × Nat) := do
  let stop ← runStop? source isIdentChar position
  let word ← slice? source position stop
  let category ← match reservedCategory word with
    | some category => some category
    | none => (rest? source stop).map fun rest =>
        if Fragment.opensCall rest then .functionCall else .plain
  single? source category position stop

def method? (source : Text) (position : Nat) : Option (List Token × Nat) := do
  let dot ← single? source .operator position (position + 1)
  let name ← run? source .methodCall isIdentChar (position + 1)
  return (dot.1 ++ name.1, name.2)

/-- The tokens at an offset at which `c :: rest` stands, with the offset at which to go on. -/
def front? (source : Text) (position : Nat) (c : Char) (rest : Text) : Option (List Token × Nat) :=
  if c = '#' then run? source .comment (· != '\n') position
  else if c = '"' then quoted? source position
  else if c.isDigit || (c == '.' && Fragment.startsWith Char.isDigit rest) then
    run? source .number Fragment.isNumberChar position
  else if isIdentStart c then word? source position
  else if c == '.' && Fragment.startsWith isIdentStart rest then method? source position
  else if Fragment.isComparison c && Fragment.startsWith (· == '=') rest then
    single? source .operator position (position + 2)
  else if Fragment.isOperator c then single? source .operator position (position + 1)
  else if Fragment.isBracket c then single? source .bracket position (position + 1)
  else single? source .plain position (position + c.utf8Size)

end Token

def scanFrom? (source : Text) (position : Nat) : Option (List Token) :=
  match rest? source position with
  | none => none
  | some [] => some []
  | some (c :: rest) =>
      match Token.front? source position c rest with
      | none => none
      | some (tokens, next) =>
          if _moves : position < next ∧ next ≤ byteLength source then
            (scanFrom? source next).map (tokens ++ ·)
          else none
termination_by byteLength source - position

/-- The tokens of a source, found by byte offsets. -/
def scan? (source : Text) : Option (List Token) :=
  scanFrom? source 0

/-- Fragments behind a text as tokens, with the offset behind them. -/
def located (front : Text) (parts : List Fragment) : List Token × Nat :=
  (locate (byteLength front) parts, byteLength (front ++ Fragment.join parts))

namespace Token

variable (front : Text)

theorem single?_append (category : Category) (text after : Text) :
    single? (front ++ text ++ after) category (byteLength front)
      (byteLength (front ++ text)) = some (located front [⟨category, text⟩]) := by
  rw [single?, slice?_append, Option.map_some]
  simp [located]

theorem run?_append (category : Category) (holds : Char → Bool) (rest : Text) :
    run? (front ++ rest) category holds (byteLength front) =
      some (located front [⟨category, rest.takeWhile holds⟩]) := by
  have single := single?_append front category (rest.takeWhile holds) (rest.dropWhile holds)
  rw [List.append_assoc, List.takeWhile_append_dropWhile] at single
  rw [run?, runStop?_append, Option.bind_some, single]

/-- A run that takes the character at an offset with it. -/
theorem run?_cons {holds : Char → Bool} {c : Char} (first : holds c = true) (category : Category)
    (rest : Text) :
    run? (front ++ c :: rest) category holds (byteLength front) =
      some (located front (Fragment.run category holds c rest).1) := by
  rw [run?_append, List.takeWhile_cons_of_pos first, Fragment.run]

theorem single?_char (category : Category) (c : Char) (rest : Text) :
    single? (front ++ c :: rest) category (byteLength front) (byteLength front + c.utf8Size) =
      some (located front [⟨category, [c]⟩]) := by
  have single := single?_append front category [c] rest
  rwa [byteLength_append, List.append_assoc, List.singleton_append] at single

theorem single?_sign {c : Char} (width : c.utf8Size = 1) (category : Category) (rest : Text) :
    single? (front ++ c :: rest) category (byteLength front) (byteLength front + 1) =
      some (located front [⟨category, [c]⟩]) := by
  rw [← width]
  exact single?_char front category c rest

theorem single?_comparison {c : Char} (width : c.utf8Size = 1) {rest : Text}
    (equals : Fragment.startsWith (· == '=') rest = true) :
    single? (front ++ c :: rest) .operator (byteLength front) (byteLength front + 2) =
      some (located front [⟨.operator, [c, '=']⟩]) := by
  cases rest with
  | nil => simp [Fragment.startsWith] at equals
  | cons d after =>
      obtain rfl : d = '=' := by simpa [Fragment.startsWith] using equals
      have both : byteLength [c, '='] = 2 := by
        rw [byteLength_cons, width]
        rfl
      have single := single?_append front .operator [c, '='] after
      rwa [byteLength_append, both, List.append_assoc] at single

theorem quoted?_cons (rest : Text) :
    quoted? (front ++ '"' :: rest) (byteLength front) =
      some (located front (Fragment.quoted rest).1) := by
  have opened : rest? (front ++ '"' :: rest) (byteLength front + 1) = some rest := by
    have behind := rest?_append (front ++ ['"']) rest
    rwa [byteLength_append, List.append_assoc, List.singleton_append] at behind
  have whole := List.takeWhile_append_dropWhile (p := (· != '"')) (l := rest)
  have stops := Fragment.startsWith_dropWhile (· != '"') rest
  have unquoted := Grammar.unquoted_takeWhile rest
  rw [quoted?, opened, Option.bind_eq_bind, Option.bind_some, Fragment.quoted]
  cases shape : rest.dropWhile (· != '"') with
  | nil =>
      rw [shape, List.append_nil] at whole
      rw [whole] at unquoted
      have single := single?_append front .string ('"' :: rest) []
      rw [List.append_nil] at single
      rw [if_neg unquoted, single, whole]
  | cons quote after =>
      rw [shape] at stops whole
      obtain rfl : quote = '"' := by simpa [Fragment.startsWith] using stops
      have closed : '"' ∈ rest := by
        rw [← whole]
        simp
      have stop : byteLength (front ++ ('"' :: rest.takeWhile (· != '"') ++ ['"'])) =
          byteLength front + 1 + byteLength (rest.takeWhile (· != '"')) + 1 := by
        have width : '"'.utf8Size = 1 := rfl
        simp only [byteLength_append, byteLength_cons, byteLength_nil, width]
        omega
      have single := single?_append front .string ('"' :: rest.takeWhile (· != '"') ++ ['"']) after
      rw [if_pos closed, ← stop]
      nth_rewrite 1 [← whole]
      simpa using single

theorem word?_cons {c : Char} (first : isIdentStart c = true) (rest : Text) :
    word? (front ++ c :: rest) (byteLength front) =
      some (located front (Fragment.word c rest).1) := by
  have letter := isIdentChar_of_isIdentStart first
  have whole : front ++ c :: rest =
      front ++ (c :: rest.takeWhile isIdentChar) ++ rest.dropWhile isIdentChar := by
    simp
  rw [word?, runStop?_append, List.takeWhile_cons_of_pos letter, whole]
  simp only [Option.bind_eq_bind, Option.bind_some, slice?_append, rest?_append, Option.map_some]
  rw [Fragment.word, Fragment.wordCategory]
  cases reservedCategory (c :: rest.takeWhile isIdentChar) with
  | some category => exact single?_append front category _ _
  | none => exact single?_append front _ _ _

theorem method?_cons (rest : Text) :
    method? (front ++ '.' :: rest) (byteLength front) =
      some (located front (Fragment.method rest).1) := by
  have width : '.'.utf8Size = 1 := rfl
  have dot := single?_sign front width .operator rest
  have name := run?_append (front ++ ['.']) .methodCall isIdentChar rest
  have behind : byteLength (front ++ ['.']) = byteLength front + 1 := byteLength_append front ['.']
  rw [behind, List.append_assoc, List.singleton_append] at name
  rw [method?, dot, name]
  simp [located, Fragment.method, behind, width]

theorem utf8Size_of_isComparison {c : Char} (sign : Fragment.isComparison c = true) :
    c.utf8Size = 1 := by
  have signs : ['=', '!', '<', '>'].all (·.utf8Size == 1) = true := by decide
  exact beq_iff_eq.mp (List.all_eq_true.mp signs c ((Grammar.isComparison_iff c).mp sign))

theorem utf8Size_of_isOperator {c : Char} (sign : Fragment.isOperator c = true) :
    c.utf8Size = 1 := by
  have signs : ['=', '<', '>', '+', '-', '*', '/'].all (·.utf8Size == 1) = true := by decide
  exact beq_iff_eq.mp (List.all_eq_true.mp signs c ((Grammar.isOperator_iff c).mp sign))

theorem utf8Size_of_isBracket {c : Char} (sign : Fragment.isBracket c = true) :
    c.utf8Size = 1 := by
  have signs : ['(', ')', '\x7b', '\x7d', '[', ']'].all (·.utf8Size == 1) = true := by decide
  exact beq_iff_eq.mp (List.all_eq_true.mp signs c ((Grammar.isBracket_iff c).mp sign))

theorem isNumberChar_of_starts {c : Char} {rest : Text}
    (starts : (c.isDigit || (c == '.' && Fragment.startsWith Char.isDigit rest)) = true) :
    Fragment.isNumberChar c = true := by
  rcases Bool.or_eq_true_iff.mp starts with digit | dotted
  · simp [Fragment.isNumberChar, digit]
  · simp [Fragment.isNumberChar, (Bool.and_eq_true_iff.mp dotted).1]

/-- At every character the offsets give the fragments that the characters give. -/
theorem front?_cons (c : Char) (rest : Text) :
    front? (front ++ c :: rest) (byteLength front) c rest =
      some (located front (Fragment.front c rest).1) := by
  unfold front? Fragment.front
  by_cases comment : c = '#'
  · rw [if_pos comment, if_pos comment]
    exact run?_cons front (by simp [comment]) .comment rest
  rw [if_neg comment, if_neg comment]
  by_cases quote : c = '"'
  · rw [if_pos quote, if_pos quote, quote]
    exact quoted?_cons front rest
  rw [if_neg quote, if_neg quote]
  by_cases number : (c.isDigit || (c == '.' && Fragment.startsWith Char.isDigit rest)) = true
  · rw [if_pos number, if_pos number]
    exact run?_cons front (isNumberChar_of_starts number) .number rest
  rw [if_neg number, if_neg number]
  by_cases letter : isIdentStart c = true
  · rw [if_pos letter, if_pos letter]
    exact word?_cons front letter rest
  rw [if_neg letter, if_neg letter]
  by_cases method : (c == '.' && Fragment.startsWith isIdentStart rest) = true
  · rw [if_pos method, if_pos method, beq_iff_eq.mp (Bool.and_eq_true_iff.mp method).1]
    exact method?_cons front rest
  rw [if_neg method, if_neg method]
  by_cases comparison : (Fragment.isComparison c && Fragment.startsWith (· == '=') rest) = true
  · rw [if_pos comparison, if_pos comparison]
    obtain ⟨sign, equals⟩ := Bool.and_eq_true_iff.mp comparison
    exact single?_comparison front (utf8Size_of_isComparison sign) equals
  rw [if_neg comparison, if_neg comparison]
  by_cases operator : Fragment.isOperator c = true
  · rw [if_pos operator, if_pos operator]
    exact single?_sign front (utf8Size_of_isOperator operator) .operator rest
  rw [if_neg operator, if_neg operator]
  by_cases bracket : Fragment.isBracket c = true
  · rw [if_pos bracket, if_pos bracket]
    exact single?_sign front (utf8Size_of_isBracket bracket) .bracket rest
  rw [if_neg bracket, if_neg bracket]
  exact single?_char front .plain c rest

end Token

/-- The fragments at the front of a source are not all empty. -/
theorem join_front_ne_nil (c : Char) (rest : Text) :
    Fragment.join (Fragment.front c rest).1 ≠ [] := by
  intro empty
  have whole := congrArg List.length (Fragment.join_front c rest)
  have bound := Fragment.length_front_le c rest
  rw [empty, List.nil_append, List.length_cons] at whole
  omega

/-- From every boundary on, the offsets give the tokens of what stands there. -/
theorem scanFrom?_append (front rest : Text) :
    scanFrom? (front ++ rest) (byteLength front) =
      some (locate (byteLength front) (fragments rest)) := by
  fun_induction fragments rest generalizing front with
  | case1 =>
      rw [scanFrom?, rest?_append]
      rfl
  | case2 c rest cut ih =>
      -- The step leads over what it cut off, and what is left stands behind that.
      have moved : 0 < byteLength (Fragment.join cut.1) := byteLength_pos (join_front_ne_nil c rest)
      have whole : front ++ c :: rest = front ++ Fragment.join cut.1 ++ cut.2 := by
        rw [List.append_assoc, Fragment.join_front]
      have moves : byteLength front < byteLength (front ++ Fragment.join cut.1) ∧
          byteLength (front ++ Fragment.join cut.1) ≤ byteLength (front ++ c :: rest) := by
        rw [whole, byteLength_append, byteLength_append (front ++ Fragment.join cut.1),
          byteLength_append]
        omega
      rw [scanFrom?, rest?_append]
      dsimp only
      rw [Token.front?_cons, located]
      dsimp only
      rw [dif_pos moves, whole, ih, Option.map_some, locate_append, byteLength_append]

/-- Scanning by offsets has a result for every source, its tokens. -/
theorem scan?_eq (source : Text) : scan? source = some (scan source) :=
  scanFrom?_append [] source

end Dabara
