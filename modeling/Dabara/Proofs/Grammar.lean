import Dabara.Proofs.Coverage

set_option autoImplicit false

namespace Dabara

namespace Fragment

theorem takeWhile_eq_nil {holds : Char → Bool} {text : Text}
    (stops : startsWith holds text = false) : text.takeWhile holds = [] := by
  cases text with
  | nil => rfl
  | cons c rest =>
      have first : holds c = false := stops
      simp [first]

theorem dropWhile_eq_self {holds : Char → Bool} {text : Text}
    (stops : startsWith holds text = false) : text.dropWhile holds = text := by
  cases text with
  | nil => rfl
  | cons c rest =>
      have first : holds c = false := stops
      simp [first]

theorem startsWith_dropWhile (holds : Char → Bool) (text : Text) :
    startsWith holds (text.dropWhile holds) = false := by
  induction text with
  | nil => rfl
  | cons c rest ih =>
      by_cases first : holds c = true
      · simpa [first] using ih
      · simp [first, startsWith]

theorem holds_of_mem_takeWhile {holds : Char → Bool} {text : Text} {c : Char}
    (member : c ∈ text.takeWhile holds) : holds c = true :=
  List.all_eq_true.mp List.all_takeWhile c member

/-- A run ends where the rest begins with another character. -/
theorem takeWhile_run {holds : Char → Bool} {body rest : Text}
    (inside : ∀ c ∈ body, holds c = true) (stops : startsWith holds rest = false) :
    (body ++ rest).takeWhile holds = body := by
  rw [List.takeWhile_append_of_pos inside, takeWhile_eq_nil stops, List.append_nil]

theorem dropWhile_run {holds : Char → Bool} {body rest : Text}
    (inside : ∀ c ∈ body, holds c = true) (stops : startsWith holds rest = false) :
    (body ++ rest).dropWhile holds = rest := by
  rw [List.dropWhile_append_of_pos inside, dropWhile_eq_self stops]

theorem run_eq {category : Category} {holds : Char → Bool} {first : Char} {body rest : Text}
    (inside : ∀ c ∈ body, holds c = true) (stops : startsWith holds rest = false) :
    run category holds first (body ++ rest) = ([⟨category, first :: body⟩], rest) := by
  rw [run, takeWhile_run inside stops, dropWhile_run inside stops]

end Fragment

open Fragment (startsWith join front)

namespace Grammar

/-- An opening parenthesis stands behind any number of spaces. -/
def CallFollows (rest : Text) : Prop :=
  ∃ count after, rest = List.replicate count ' ' ++ '(' :: after

def IsReserved (word : Text) : Prop :=
  word ∈ keywords ∨ word ∈ declarations ∨ word ∈ booleans ∨ word ∈ builtins

/-- The category of a word: that of its table, else whether it is called. -/
inductive Classifies (word rest : Text) : Category → Prop
  | keyword (listed : word ∈ keywords) : Classifies word rest .keyword
  | declaration (listed : word ∈ declarations) : Classifies word rest .declaration
  | boolean (listed : word ∈ booleans) : Classifies word rest .boolean
  | builtin (listed : word ∈ builtins) : Classifies word rest .builtin
  | functionCall (free : ¬ IsReserved word) (called : CallFollows rest) :
      Classifies word rest .functionCall
  | plain (free : ¬ IsReserved word) (uncalled : ¬ CallFollows rest) :
      Classifies word rest .plain

/-- A name that cannot be made longer: a letter, more letters and digits, and neither behind it. -/
structure IsWord (text rest : Text) : Prop where
  starts : startsWith isIdentStart text = true
  letters : ∀ c ∈ text, isIdentChar c = true
  maximal : startsWith isIdentChar rest = false

/-- A number that cannot be made longer: digits and dots, of which the first or second is a digit,
and neither behind it. -/
structure IsNumber (text rest : Text) : Prop where
  starts : (∃ digit more, text = digit :: more ∧ digit.isDigit = true) ∨
    ∃ digit more, text = '.' :: digit :: more ∧ digit.isDigit = true
  digits : ∀ c ∈ text, c.isDigit = true ∨ c = '.'
  maximal : startsWith Char.isDigit rest = false ∧ startsWith (· == '.') rest = false

/-- A character that begins nothing else before the given rest. -/
structure StandsAlone (c : Char) (rest : Text) : Prop where
  noComment : c ≠ '#'
  noString : c ≠ '"'
  noDigit : c.isDigit = false
  noLetter : isIdentStart c = false
  noSign : c ∉ ['=', '<', '>', '+', '-', '*', '/']
  noBracket : c ∉ ['(', ')', '\x7b', '\x7d', '[', ']']
  noDot : c = '.' → startsWith Char.isDigit rest = false ∧ startsWith isIdentStart rest = false
  noUnequal : c = '!' → startsWith (· == '=') rest = false

def dot : Fragment :=
  ⟨.operator, ['.']⟩

/-- Whether a fragment may stand between the fragment before it and the text that follows. -/
inductive Admits (previous : Option Fragment) : Fragment → Text → Prop
  | comment {body rest : Text} (sameLine : '\n' ∉ body)
      (ends : rest = [] ∨ startsWith (· == '\n') rest = true) :
      Admits previous ⟨.comment, '#' :: body⟩ rest
  | closedString {body rest : Text} (unquoted : '"' ∉ body) :
      Admits previous ⟨.string, '"' :: body ++ ['"']⟩ rest
  | openString {body : Text} (unquoted : '"' ∉ body) :
      Admits previous ⟨.string, '"' :: body⟩ []
  | number {text rest : Text} (number : IsNumber text rest) :
      Admits previous ⟨.number, text⟩ rest
  | word {text rest : Text} {category : Category} (undotted : previous ≠ some dot)
      (word : IsWord text rest) (classified : Classifies text rest category) :
      Admits previous ⟨category, text⟩ rest
  | dot {rest : Text} (named : startsWith isIdentStart rest = true) :
      Admits previous Grammar.dot rest
  | method {name rest : Text} (dotted : previous = some Grammar.dot) (word : IsWord name rest) :
      Admits previous ⟨.methodCall, name⟩ rest
  | comparison {sign : Char} {rest : Text} (listed : sign ∈ ['=', '!', '<', '>']) :
      Admits previous ⟨.operator, [sign, '=']⟩ rest
  | order {sign : Char} {rest : Text} (listed : sign ∈ ['=', '<', '>'])
      (alone : startsWith (· == '=') rest = false) :
      Admits previous ⟨.operator, [sign]⟩ rest
  | arithmetic {sign : Char} {rest : Text} (listed : sign ∈ ['+', '-', '*', '/']) :
      Admits previous ⟨.operator, [sign]⟩ rest
  | bracket {sign : Char} {rest : Text} (listed : sign ∈ ['(', ')', '\x7b', '\x7d', '[', ']']) :
      Admits previous ⟨.bracket, [sign]⟩ rest
  | plain {c : Char} {rest : Text} (alone : StandsAlone c rest) :
      Admits previous ⟨.plain, [c]⟩ rest

/-- Every fragment is admitted behind the one before it and in front of all that follow. -/
def Grammatical (parts : List Fragment) : Prop :=
  ∀ before part after, parts = before ++ part :: after →
    Admits before.getLast? part (join after)

/-- The same from the left, the first fragment standing behind `previous`. -/
def GrammaticalFrom (previous : Option Fragment) : List Fragment → Prop
  | [] => True
  | part :: rest => Admits previous part (join rest) ∧ GrammaticalFrom (some part) rest

theorem grammaticalFrom_iff (previous : Option Fragment) (parts : List Fragment) :
    GrammaticalFrom previous parts ↔
      ∀ before part after, parts = before ++ part :: after →
        Admits (before.getLast?.or previous) part (join after) := by
  induction parts generalizing previous with
  | nil => simp [GrammaticalFrom]
  | cons first rest ih =>
      rw [GrammaticalFrom, ih]
      constructor
      · rintro ⟨head, tail⟩ before part after split
        cases before with
        | nil =>
            obtain ⟨rfl, rfl⟩ := List.cons.inj split
            exact head
        | cons second before =>
            obtain ⟨rfl, rfl⟩ := List.cons.inj split
            simpa [List.getLast?_cons] using tail before part after rfl
      · intro every
        refine ⟨every [] first rest rfl, ?_⟩
        rintro before part after rfl
        simpa [List.getLast?_cons] using every (first :: before) part after rfl

theorem grammatical_iff (parts : List Fragment) :
    Grammatical parts ↔ GrammaticalFrom none parts := by
  simp only [grammaticalFrom_iff, Grammatical, Option.or_none]

theorem not_isDigit_of_isIdentStart {c : Char} (letter : isIdentStart c = true) :
    c.isDigit = false := by
  have code : c.isAlpha = true ∨ c = '_' ∨ c ∈ hausaLetters := by
    simpa [isIdentStart, or_assoc] using letter
  rcases code with alpha | rfl | hooked
  · -- Letters have codes from 65 on, digits have codes up to 57.
    have low : 65 ≤ c.val.toNat := by
      have cases : c.isUpper = true ∨ c.isLower = true := (Bool.or_eq_true _ _).mp alpha
      rcases cases with upper | lower
      · have least : (65 : UInt32) ≤ c.val := (of_decide_eq_true upper).1
        exact UInt32.le_iff_toNat_le.mp least
      · have least : (97 : UInt32) ≤ c.val := of_decide_eq_true ((Bool.and_eq_true _ _).mp lower).1
        have code : 97 ≤ c.val.toNat := UInt32.le_iff_toNat_le.mp least
        omega
    simp only [Char.isDigit, Bool.and_eq_false_iff, decide_eq_false_iff_not, ge_iff_le,
      UInt32.le_iff_toNat_le]
    have digits : ¬ c.val.toNat ≤ 57 := by omega
    exact Or.inr digits
  · rfl
  · have every : ∀ letter ∈ hausaLetters, letter.isDigit = false := by
      simp [hausaLetters, Char.isDigit]
    exact every c hooked

theorem callFollows_iff (rest : Text) : CallFollows rest ↔ Fragment.opensCall rest = true := by
  constructor
  · intro parts
    obtain ⟨count, after, rfl⟩ := parts
    have spaces : ∀ c ∈ List.replicate count ' ', (c == ' ') = true := by
      intro c member
      simp [List.eq_of_mem_replicate member]
    rw [Fragment.opensCall, Fragment.dropWhile_run spaces rfl]
    rfl
  · intro opens
    refine ⟨(rest.takeWhile (· == ' ')).length, (rest.dropWhile (· == ' ')).tail, ?_⟩
    have spaces : rest.takeWhile (· == ' ') =
        List.replicate (rest.takeWhile (· == ' ')).length ' ' := by
      apply List.eq_replicate_of_mem
      intro c member
      simpa using Fragment.holds_of_mem_takeWhile member
    have parenthesis : rest.dropWhile (· == ' ') = '(' :: (rest.dropWhile (· == ' ')).tail := by
      rw [Fragment.opensCall] at opens
      cases shape : rest.dropWhile (· == ' ') with
      | nil => simp [shape, startsWith] at opens
      | cons c after =>
          have sign : c = '(' := by simpa [shape, startsWith] using opens
          rw [sign, List.tail_cons]
    rw [← spaces, ← parenthesis, List.takeWhile_append_dropWhile]

/-- No word is in two tables. -/
theorem tables_disjoint :
    (∀ word ∈ declarations, word ∉ keywords) ∧
    (∀ word ∈ booleans, word ∉ keywords ∧ word ∉ declarations) ∧
    ∀ word ∈ builtins, word ∉ keywords ∧ word ∉ declarations ∧ word ∉ booleans := by
  decide

theorem reservedCategory_eq_none_iff (word : Text) :
    reservedCategory word = none ↔ ¬ IsReserved word := by
  unfold reservedCategory IsReserved
  grind

/-- The tables are looked up one after the other, but since no word is in two of them, the order
does not matter. -/
theorem classifies_iff (word rest : Text) (category : Category) :
    Classifies word rest category ↔ category = Fragment.wordCategory word rest := by
  obtain ⟨declared, truth, built⟩ := tables_disjoint
  constructor
  · intro classified
    cases classified with
    | keyword listed => simp [Fragment.wordCategory, reservedCategory, listed]
    | declaration listed =>
        simp [Fragment.wordCategory, reservedCategory, listed, declared word listed]
    | boolean listed =>
        simp [Fragment.wordCategory, reservedCategory, listed, truth word listed]
    | builtin listed =>
        simp [Fragment.wordCategory, reservedCategory, listed, built word listed]
    | functionCall free called =>
        simp [Fragment.wordCategory, (reservedCategory_eq_none_iff word).mpr free,
          (callFollows_iff rest).mp called]
    | plain free uncalled =>
        have opens : Fragment.opensCall rest = false := by
          simpa [callFollows_iff] using uncalled
        simp [Fragment.wordCategory, (reservedCategory_eq_none_iff word).mpr free, opens]
  · intro same
    subst same
    by_cases reserved : IsReserved word
    · rcases reserved with listed | listed | listed | listed
      · simpa [Fragment.wordCategory, reservedCategory, listed] using Classifies.keyword listed
      · simpa [Fragment.wordCategory, reservedCategory, listed, declared word listed] using
          Classifies.declaration listed
      · simpa [Fragment.wordCategory, reservedCategory, listed, truth word listed] using
          Classifies.boolean listed
      · simpa [Fragment.wordCategory, reservedCategory, listed, built word listed] using
          Classifies.builtin listed
    · rw [Fragment.wordCategory, (reservedCategory_eq_none_iff word).mpr reserved, Option.getD_none]
      by_cases called : CallFollows rest
      · rw [if_pos ((callFollows_iff rest).mp called)]
        exact .functionCall reserved called
      · rw [if_neg (mt (callFollows_iff rest).mpr called)]
        exact .plain reserved called

theorem IsWord.startsWith_append {text rest : Text} (word : IsWord text rest) (after : Text) :
    startsWith isIdentStart (text ++ after) = true := by
  cases text with
  | nil => exact absurd word.starts (by simp [startsWith])
  | cons first text => exact word.starts

theorem isWord_run {first : Char} (letter : isIdentStart first = true) (rest : Text) :
    IsWord (first :: rest.takeWhile isIdentChar) (rest.dropWhile isIdentChar) where
  starts := letter
  letters := by
    intro c member
    rcases List.mem_cons.mp member with rfl | later
    · exact isIdentChar_of_isIdentStart letter
    · exact Fragment.holds_of_mem_takeWhile later
  maximal := Fragment.startsWith_dropWhile isIdentChar rest

theorem isWord_name {rest : Text} (named : startsWith isIdentStart rest = true) :
    IsWord (rest.takeWhile isIdentChar) (rest.dropWhile isIdentChar) := by
  cases rest with
  | nil => simp [startsWith] at named
  | cons first rest =>
      have letter : isIdentChar first = true := isIdentChar_of_isIdentStart named
      simpa [letter] using isWord_run named rest

theorem isNumber_run {first : Char} {rest : Text}
    (starts : (first.isDigit || (first == '.' && startsWith Char.isDigit rest)) = true) :
    IsNumber (first :: rest.takeWhile Fragment.isNumberChar)
      (rest.dropWhile Fragment.isNumberChar) where
  starts := by
    rcases Bool.or_eq_true_iff.mp starts with digit | dotted
    · exact Or.inl ⟨first, _, rfl, digit⟩
    · obtain ⟨sign, digit⟩ := Bool.and_eq_true_iff.mp dotted
      cases rest with
      | nil => simp [startsWith] at digit
      | cons second rest =>
          have digit : second.isDigit = true := digit
          refine Or.inr ⟨second, rest.takeWhile Fragment.isNumberChar, ?_, digit⟩
          simp [beq_iff_eq.mp sign, Fragment.isNumberChar, digit]
  digits := by
    intro c member
    rcases List.mem_cons.mp member with rfl | later
    · rcases Bool.or_eq_true_iff.mp starts with digit | dotted
      · exact Or.inl digit
      · exact Or.inr (beq_iff_eq.mp (Bool.and_eq_true_iff.mp dotted).1)
    · simpa [Fragment.isNumberChar] using Fragment.holds_of_mem_takeWhile later
  maximal := by
    have stops := Fragment.startsWith_dropWhile Fragment.isNumberChar rest
    cases shape : rest.dropWhile Fragment.isNumberChar with
    | nil => exact ⟨rfl, rfl⟩
    | cons c after =>
        rw [shape] at stops
        simpa [startsWith, Fragment.isNumberChar] using stops

theorem admits_comment (previous : Option Fragment) (rest : Text) :
    Admits previous ⟨.comment, '#' :: rest.takeWhile (· != '\n')⟩ (rest.dropWhile (· != '\n')) := by
  apply Admits.comment
  · intro member
    have other := Fragment.holds_of_mem_takeWhile member
    simp at other
  · have stops := Fragment.startsWith_dropWhile (· != '\n') rest
    cases shape : rest.dropWhile (· != '\n') with
    | nil => exact Or.inl rfl
    | cons c after =>
        rw [shape] at stops
        refine Or.inr ?_
        simpa [startsWith] using stops

theorem unquoted_takeWhile (rest : Text) : '"' ∉ rest.takeWhile (· != '"') := by
  intro member
  have other := Fragment.holds_of_mem_takeWhile member
  simp at other

theorem admits_quoted (previous : Option Fragment) (rest : Text) :
    ∃ text, (Fragment.quoted rest).1 = [⟨.string, text⟩] ∧
      Admits previous ⟨.string, text⟩ (Fragment.quoted rest).2 := by
  have stops := Fragment.startsWith_dropWhile (· != '"') rest
  unfold Fragment.quoted
  dsimp only
  split
  · exact ⟨_, rfl, .openString (unquoted_takeWhile rest)⟩
  · next quote after shape =>
      rw [shape] at stops
      have sign : quote = '"' := by simpa [startsWith] using stops
      subst sign
      exact ⟨_, rfl, .closedString (unquoted_takeWhile rest)⟩

theorem isComparison_iff (c : Char) :
    Fragment.isComparison c = true ↔ c ∈ ['=', '!', '<', '>'] := by
  simp [Fragment.isComparison, or_assoc]

theorem isOperator_iff (c : Char) :
    Fragment.isOperator c = true ↔ c ∈ ['=', '<', '>', '+', '-', '*', '/'] := by
  simp [Fragment.isOperator, or_assoc]

theorem isBracket_iff (c : Char) :
    Fragment.isBracket c = true ↔ c ∈ ['(', ')', '\x7b', '\x7d', '[', ']'] := by
  simp [Fragment.isBracket, or_assoc]

/-- One fragment other than the dot before a method, admitted behind anything but such a dot. -/
def GivesOne (cut : List Fragment × Text) : Prop :=
  ∃ part, cut.1 = [part] ∧ part ≠ dot ∧ ∀ previous, previous ≠ some dot → Admits previous part cut.2

/-- The dot before a method and the method. -/
def GivesMethod (cut : List Fragment × Text) : Prop :=
  ∃ name, cut.1 = [dot, ⟨.methodCall, name⟩] ∧ IsWord name cut.2

theorem standsAlone_of_not {c : Char} {rest : Text} (comment : c ≠ '#') (quote : c ≠ '"')
    (number : ¬ (c.isDigit || (c == '.' && startsWith Char.isDigit rest)) = true)
    (letter : ¬ isIdentStart c = true)
    (method : ¬ (c == '.' && startsWith isIdentStart rest) = true)
    (comparison : ¬ (Fragment.isComparison c && startsWith (· == '=') rest) = true)
    (operator : ¬ Fragment.isOperator c = true) (bracket : ¬ Fragment.isBracket c = true) :
    StandsAlone c rest where
  noComment := comment
  noString := quote
  noDigit := by
    simp only [Bool.or_eq_true, not_or, Bool.not_eq_true] at number
    exact number.1
  noLetter := by simpa using letter
  noSign := mt (isOperator_iff c).mpr operator
  noBracket := mt (isBracket_iff c).mpr bracket
  noDot := by
    intro same
    subst same
    exact ⟨by simpa using number, by simpa using method⟩
  noUnequal := by
    intro same
    subst same
    simpa [Fragment.isComparison] using comparison

theorem admits_operator {previous : Option Fragment} {c : Char} {rest : Text}
    (operator : Fragment.isOperator c = true)
    (alone : ¬ (Fragment.isComparison c && startsWith (· == '=') rest) = true) :
    Admits previous ⟨.operator, [c]⟩ rest := by
  have listed : c ∈ ['=', '<', '>'] ∨ c ∈ ['+', '-', '*', '/'] :=
    List.mem_append.mp ((isOperator_iff c).mp operator)
  rcases listed with order | arithmetic
  · have every : ∀ sign ∈ ['=', '<', '>'], Fragment.isComparison sign = true := by
      simp [Fragment.isComparison]
    have comparison : Fragment.isComparison c = true := every c order
    exact .order order (by simpa [comparison] using alone)
  · exact .arithmetic arithmetic

/-- What the rules give at the front of a text, by the rule that applies. -/
theorem front_cases (c : Char) (rest : Text) :
    GivesOne (front c rest) ∨ GivesMethod (front c rest) := by
  unfold front
  split
  · next comment =>
      subst comment
      exact Or.inl ⟨_, rfl, by simp [dot], fun previous _ => admits_comment previous rest⟩
  split
  · obtain ⟨text, single, _⟩ := admits_quoted none rest
    refine Or.inl ⟨_, single, by simp [dot], ?_⟩
    intro previous _
    obtain ⟨other, same, admitted⟩ := admits_quoted previous rest
    have equal : text = other := by simpa [single] using same
    rw [equal]
    exact admitted
  split
  · next starts =>
      exact Or.inl ⟨_, rfl, by simp [dot], fun _ _ => .number (isNumber_run starts)⟩
  split
  · next letter =>
      refine Or.inl ⟨_, rfl, ?_, ?_⟩
      · intro same
        have sign : c = '.' := by
          have texts := congrArg Fragment.text same
          simp only [dot, List.cons.injEq] at texts
          exact texts.1
        rw [sign] at letter
        exact absurd letter (by decide)
      · intro previous undotted
        exact .word undotted (isWord_run letter rest) ((classifies_iff _ _ _).mpr rfl)
  split
  · next method =>
      have named : startsWith isIdentStart rest = true := (Bool.and_eq_true_iff.mp method).2
      exact Or.inr ⟨_, rfl, isWord_name named⟩
  split
  · next comparison =>
      have listed := (isComparison_iff c).mp (Bool.and_eq_true_iff.mp comparison).1
      exact Or.inl ⟨_, rfl, by simp [dot], fun _ _ => .comparison listed⟩
  split
  · next alone operator =>
      refine Or.inl ⟨_, rfl, ?_, fun _ _ => admits_operator operator alone⟩
      intro same
      have sign : c = '.' := by simpa [dot] using same
      rw [sign] at operator
      exact absurd operator (by decide)
  split
  · next bracket =>
      exact Or.inl ⟨_, rfl, by simp [dot], fun _ _ => .bracket ((isBracket_iff c).mp bracket)⟩
  · next comment quote number letter method comparison operator bracket =>
      exact Or.inl ⟨_, rfl, by simp [dot], fun _ _ => .plain
        (standsAlone_of_not comment quote number letter method comparison operator bracket)⟩

/-- Every fragment of a source is admitted where it stands. -/
theorem grammaticalFrom_fragments (source : Text) :
    ∀ previous, previous ≠ some dot → GrammaticalFrom previous (fragments source) := by
  fun_induction fragments source with
  | case1 => exact fun _ _ => trivial
  | case2 c rest cut ih =>
      intro previous undotted
      have whole : join (fragments cut.2) = cut.2 := join_fragments cut.2
      rcases front_cases c rest with ⟨part, one, ordinary, admitted⟩ | ⟨name, two, word⟩
      · have cutOne : cut.1 = [part] := one
        rw [cutOne, List.singleton_append]
        refine ⟨?_, ih _ (by simpa using ordinary)⟩
        rw [whole]
        exact admitted previous undotted
      · have cutTwo : cut.1 = [dot, ⟨.methodCall, name⟩] := two
        rw [cutTwo, List.cons_append, List.singleton_append]
        refine ⟨.dot (word.startsWith_append _), ?_, ih _ (by simp [dot])⟩
        rw [whole]
        exact .method rfl word

/-- Every source is cut grammatically. -/
theorem grammatical_fragments (source : Text) : Grammatical (fragments source) :=
  (grammatical_iff _).mpr (grammaticalFrom_fragments source none (by simp))

theorem isIdentStart_ne {c : Char} (letter : isIdentStart c = true) :
    c ≠ '#' ∧ c ≠ '"' ∧ c ≠ '.' := by
  refine ⟨?_, ?_, ?_⟩ <;> rintro rfl <;> exact absurd letter (by decide)

theorem front_word {first : Char} {body rest : Text} (word : IsWord (first :: body) rest) :
    front first (body ++ rest) =
      ([⟨Fragment.wordCategory (first :: body) rest, first :: body⟩], rest) := by
  have letter : isIdentStart first = true := word.starts
  obtain ⟨noComment, noString, noDot⟩ := isIdentStart_ne letter
  have inside : ∀ c ∈ body, isIdentChar c = true :=
    fun c member => word.letters c (List.mem_cons_of_mem _ member)
  have number : ¬ (first.isDigit || (first == '.' && startsWith Char.isDigit (body ++ rest))) =
      true := by
    simp [not_isDigit_of_isIdentStart letter, noDot]
  rw [front, if_neg noComment, if_neg noString, if_neg number, if_pos letter, Fragment.word,
    Fragment.takeWhile_run inside word.maximal, Fragment.dropWhile_run inside word.maximal]

theorem front_method {name rest : Text} (word : IsWord name rest) :
    front '.' (name ++ rest) = ([dot, ⟨.methodCall, name⟩], rest) := by
  have starts := word.startsWith_append rest
  have digits : startsWith Char.isDigit (name ++ rest) = false := by
    cases name with
    | nil => exact absurd word.starts (by simp [startsWith])
    | cons first name => exact not_isDigit_of_isIdentStart word.starts
  have number : ¬ ('.'.isDigit || ('.' == '.' && startsWith Char.isDigit (name ++ rest))) =
      true := by
    rw [digits]
    decide
  have method : ('.' == '.' && startsWith isIdentStart (name ++ rest)) = true := by
    rw [starts]
    rfl
  rw [front, if_neg (by decide), if_neg (by decide), if_neg number, if_neg (by decide),
    if_pos method, Fragment.method, Fragment.takeWhile_run word.letters word.maximal,
    Fragment.dropWhile_run word.letters word.maximal, dot]

theorem front_number {first : Char} {body rest : Text} (number : IsNumber (first :: body) rest) :
    front first (body ++ rest) = ([⟨.number, first :: body⟩], rest) := by
  have starts : (first.isDigit || (first == '.' && startsWith Char.isDigit (body ++ rest))) =
      true := by
    rcases number.starts with ⟨digit, more, same, isDigit⟩ | ⟨digit, more, same, isDigit⟩
    · obtain ⟨rfl, rfl⟩ := List.cons.inj same
      simp [isDigit]
    · obtain ⟨rfl, rfl⟩ := List.cons.inj same
      simp [startsWith, isDigit]
  have noComment : first ≠ '#' := by
    intro same
    subst same
    exact absurd starts (by simp)
  have noString : first ≠ '"' := by
    intro same
    subst same
    exact absurd starts (by simp)
  have inside : ∀ c ∈ body, Fragment.isNumberChar c = true := by
    intro c member
    simpa [Fragment.isNumberChar] using number.digits c (List.mem_cons_of_mem _ member)
  have stops : startsWith Fragment.isNumberChar rest = false := by
    obtain ⟨digit, dotted⟩ := number.maximal
    cases rest with
    | nil => rfl
    | cons c after =>
        simp only [startsWith] at digit dotted
        simp [startsWith, Fragment.isNumberChar, digit, dotted]
  rw [front, if_neg noComment, if_neg noString, if_pos starts, Fragment.run_eq inside stops]

theorem front_plain {c : Char} {rest : Text} (alone : StandsAlone c rest) :
    front c rest = ([⟨.plain, [c]⟩], rest) := by
  have number : ¬ (c.isDigit || (c == '.' && startsWith Char.isDigit rest)) = true := by
    by_cases dotted : c = '.'
    · simp [alone.noDigit, alone.noDot dotted]
    · simp [alone.noDigit, dotted]
  have method : ¬ (c == '.' && startsWith isIdentStart rest) = true := by
    by_cases dotted : c = '.'
    · simp [alone.noDot dotted]
    · simp [dotted]
  have comparison : ¬ (Fragment.isComparison c && startsWith (· == '=') rest) = true := by
    by_cases unequal : c = '!'
    · simp [alone.noUnequal unequal]
    · have noComparison : ¬ Fragment.isComparison c = true := by
        have noSign := alone.noSign
        simp only [List.mem_cons, not_or] at noSign
        simp [isComparison_iff, unequal, noSign]
      simp [noComparison]
  rw [front, if_neg alone.noComment, if_neg alone.noString, if_neg number,
    if_neg (by simp [alone.noLetter]), if_neg method, if_neg comparison,
    if_neg (mt (isOperator_iff c).mp alone.noSign),
    if_neg (mt (isBracket_iff c).mp alone.noBracket)]

theorem front_openString {body : Text} (unquoted : '"' ∉ body) :
    front '"' body = ([⟨.string, '"' :: body⟩], []) := by
  have inside : ∀ c ∈ body, (c != '"') = true := by
    intro c member
    simpa using ne_of_mem_of_not_mem member unquoted
  have stops : startsWith (· != '"') [] = false := rfl
  have taken := Fragment.takeWhile_run inside stops
  have dropped := Fragment.dropWhile_run inside stops
  rw [List.append_nil] at taken dropped
  rw [front, if_neg (by decide), if_pos rfl, Fragment.quoted]
  simp only [taken, dropped]

theorem front_closedString {body : Text} (unquoted : '"' ∉ body) (rest : Text) :
    front '"' (body ++ ['"'] ++ rest) = ([⟨.string, '"' :: body ++ ['"']⟩], rest) := by
  have inside : ∀ c ∈ body, (c != '"') = true := by
    intro c member
    simpa using ne_of_mem_of_not_mem member unquoted
  have stops : startsWith (· != '"') ('"' :: rest) = false := rfl
  rw [front, if_neg (by decide), if_pos rfl, Fragment.quoted, List.append_assoc,
    List.singleton_append]
  simp only [Fragment.takeWhile_run inside stops, Fragment.dropWhile_run inside stops]

theorem front_comment {body rest : Text} (sameLine : '\n' ∉ body)
    (ends : rest = [] ∨ startsWith (· == '\n') rest = true) :
    front '#' (body ++ rest) = ([⟨.comment, '#' :: body⟩], rest) := by
  have inside : ∀ c ∈ body, (c != '\n') = true := by
    intro c member
    simpa using ne_of_mem_of_not_mem member sameLine
  have stops : startsWith (· != '\n') rest = false := by
    rcases ends with rfl | breaks
    · rfl
    · cases rest with
      | nil => rfl
      | cons c after => simpa [startsWith] using breaks
  rw [front, if_pos rfl, Fragment.run_eq inside stops]

theorem front_order {sign : Char} {rest : Text} (listed : sign ∈ ['=', '<', '>'])
    (alone : startsWith (· == '=') rest = false) :
    front sign rest = ([⟨.operator, [sign]⟩], rest) := by
  have comparison : ¬ (Fragment.isComparison sign && startsWith (· == '=') rest) = true := by
    simp [alone]
  simp only [List.mem_cons, List.not_mem_nil, or_false] at listed
  rcases listed with rfl | rfl | rfl <;>
    rw [front, if_neg (by decide), if_neg (by decide), if_neg (by simp), if_neg (by decide),
      if_neg (by simp), if_neg comparison, if_pos (by decide)]

/-- An admitted fragment other than the dot before a method is what the rules give. -/
theorem front_of_admits {previous : Option Fragment} {part : Fragment} {c : Char}
    {more rest : Text} (undotted : previous ≠ some dot) (ordinary : part ≠ dot)
    (admitted : Admits previous part rest) (text : part.text = c :: more) :
    front c (more ++ rest) = ([part], rest) := by
  cases admitted with
  | comment sameLine ends =>
      obtain ⟨rfl, rfl⟩ := List.cons.inj text
      exact front_comment sameLine ends
  | closedString unquoted =>
      obtain ⟨rfl, rfl⟩ := List.cons.inj text
      exact front_closedString unquoted rest
  | openString unquoted =>
      obtain ⟨rfl, rfl⟩ := List.cons.inj text
      rw [List.append_nil]
      exact front_openString unquoted
  | number number =>
      subst text
      exact front_number number
  | word _ word classified =>
      subst text
      rw [front_word word, (classifies_iff _ _ _).mp classified]
  | dot named => exact absurd rfl ordinary
  | method dotted _ => exact absurd dotted undotted
  | comparison listed =>
      obtain ⟨rfl, rfl⟩ := List.cons.inj text
      simp only [List.mem_cons, List.not_mem_nil, or_false] at listed
      rcases listed with rfl | rfl | rfl | rfl <;> rfl
  | order listed alone =>
      obtain ⟨rfl, rfl⟩ := List.cons.inj text
      exact front_order listed alone
  | arithmetic listed =>
      obtain ⟨rfl, rfl⟩ := List.cons.inj text
      simp only [List.mem_cons, List.not_mem_nil, or_false] at listed
      rcases listed with rfl | rfl | rfl | rfl <;> rfl
  | bracket listed =>
      obtain ⟨rfl, rfl⟩ := List.cons.inj text
      simp only [List.mem_cons, List.not_mem_nil, or_false] at listed
      rcases listed with rfl | rfl | rfl | rfl | rfl | rfl <;> rfl
  | plain alone =>
      obtain ⟨rfl, rfl⟩ := List.cons.inj text
      exact front_plain alone

/-- What begins with a letter is a word or, behind the dot before it, a method. -/
theorem Admits.named_cases {previous : Option Fragment} {part : Fragment} {rest : Text}
    (admitted : Admits previous part rest) (named : startsWith isIdentStart part.text = true) :
    IsWord part.text rest ∧
      (previous ≠ some Grammar.dot ∧ Classifies part.text rest part.category ∨
        previous = some Grammar.dot ∧ part.category = .methodCall) := by
  cases admitted with
  | comment _ _ => exact absurd named (by simp [startsWith]; decide)
  | closedString _ => exact absurd named (by simp [startsWith]; decide)
  | openString _ => exact absurd named (by simp [startsWith]; decide)
  | number number =>
      rcases number.starts with ⟨digit, more, rfl, isDigit⟩ | ⟨digit, more, rfl, isDigit⟩
      · have letter : isIdentStart digit = true := named
        rw [not_isDigit_of_isIdentStart letter] at isDigit
        cases isDigit
      · exact absurd named (by simp [startsWith]; decide)
  | word undotted word classified => exact ⟨word, Or.inl ⟨undotted, classified⟩⟩
  | dot _ => exact absurd named (by simp [Grammar.dot, startsWith]; decide)
  | method dotted word => exact ⟨word, Or.inr ⟨dotted, rfl⟩⟩
  | comparison listed =>
      have every : ∀ sign ∈ ['=', '!', '<', '>'], isIdentStart sign = false := by
        simp [isIdentStart, hausaLetters]
      exact absurd named (by simp [startsWith, every _ listed])
  | order listed _ =>
      have every : ∀ sign ∈ ['=', '<', '>'], isIdentStart sign = false := by
        simp [isIdentStart, hausaLetters]
      exact absurd named (by simp [startsWith, every _ listed])
  | arithmetic listed =>
      have every : ∀ sign ∈ ['+', '-', '*', '/'], isIdentStart sign = false := by
        simp [isIdentStart, hausaLetters]
      exact absurd named (by simp [startsWith, every _ listed])
  | bracket listed =>
      have every : ∀ sign ∈ ['(', ')', '\x7b', '\x7d', '[', ']'], isIdentStart sign = false := by
        simp [isIdentStart, hausaLetters]
      exact absurd named (by simp [startsWith, every _ listed])
  | plain alone => exact absurd named (by simp [startsWith, alone.noLetter])

/-- Behind a dot before a name only the method of that name is admitted. -/
theorem method_of_admits {part : Fragment} {rest : Text} (admitted : Admits (some dot) part rest)
    (nonempty : part.text ≠ []) (named : startsWith isIdentStart (part.text ++ rest) = true) :
    ∃ name, part = ⟨.methodCall, name⟩ ∧ IsWord name rest := by
  have begins : startsWith isIdentStart part.text = true := by
    obtain ⟨c, more, text⟩ := List.exists_cons_of_ne_nil nonempty
    rw [text] at named ⊢
    exact named
  obtain ⟨word, ⟨undotted, _⟩ | ⟨_, category⟩⟩ := admitted.named_cases begins
  · exact absurd rfl undotted
  · exact ⟨part.text, by rw [← category], word⟩

/-- A grammatical cut is the one that the rules give. -/
theorem fragments_join {previous : Option Fragment} {parts : List Fragment}
    (undotted : previous ≠ some dot) (nonempty : ∀ part ∈ parts, part.text ≠ [])
    (grammatical : GrammaticalFrom previous parts) : fragments (join parts) = parts := by
  -- A dot takes the method behind it along, so the induction is on the number of fragments left.
  induction size : parts.length using Nat.strongRecOn generalizing previous parts with
  | ind count ih =>
    cases parts with
    | nil => rw [Fragment.join_nil, fragments_nil]
    | cons part rest =>
        obtain ⟨admitted, later⟩ := grammatical
        have restNonempty : ∀ part ∈ rest, part.text ≠ [] :=
          fun part member => nonempty part (List.mem_cons_of_mem _ member)
        rw [List.length_cons] at size
        by_cases dotted : part = dot
        · subst dotted
          have named : startsWith isIdentStart (join rest) = true := by
            cases admitted with
            | dot named => exact named
            | order listed _ => exact absurd listed (by decide)
            | arithmetic listed => exact absurd listed (by decide)
            | word _ word _ => exact absurd word.starts (by decide)
          cases rest with
          | nil => exact absurd named (by simp [startsWith])
          | cons second rest =>
              obtain ⟨behind, later⟩ := later
              obtain ⟨name, rfl, word⟩ :=
                method_of_admits behind (restNonempty second (by simp)) named
              have named : some (Fragment.mk .methodCall name) ≠ some dot := by simp [dot]
              have shorter : rest.length < count := by
                rw [List.length_cons] at size
                omega
              have tail := ih rest.length shorter named
                (fun part member => restNonempty part (List.mem_cons_of_mem _ member)) later rfl
              rw [Fragment.join_cons, Fragment.join_cons, dot, List.singleton_append,
                fragments_cons, front_method word, tail, dot, List.cons_append,
                List.singleton_append]
        · obtain ⟨c, more, text⟩ := List.exists_cons_of_ne_nil (nonempty part (by simp))
          have tail := ih rest.length (by omega) (by simpa using dotted) restNonempty later rfl
          rw [Fragment.join_cons, text, List.cons_append, fragments_cons,
            front_of_admits undotted dotted admitted text, tail, List.singleton_append]

/-- Cut into nonempty fragments, a source is cut as its tokens cut it exactly if every fragment is
admitted where it stands. -/
theorem scan_eq_iff_grammatical (source : Text) (parts : List Fragment)
    (nonempty : ∀ part ∈ parts, part.text ≠ []) (whole : join parts = source) :
    (scan source).map Token.toFragment = parts ↔ Grammatical parts := by
  have scanned : (scan source).map Token.toFragment = fragments source :=
    map_toFragment_locate 0 (fragments source)
  rw [scanned, grammatical_iff]
  constructor
  · intro same
    subst same
    exact grammaticalFrom_fragments source none (by simp)
  · intro grammatical
    rw [← whole]
    exact fragments_join (by simp) nonempty grammatical

/-- A cut in which a dot stands before a method, in a number and alone, an exclamation mark before
an equals sign and alone, a comment is empty and a string open. -/
def sampleCut : List Fragment :=
  [⟨.functionCall, ['ƙ', '1']⟩, ⟨.plain, [' ']⟩, ⟨.bracket, ['(']⟩, ⟨.plain, ['x']⟩, dot,
    ⟨.methodCall, ['g', 'a']⟩, ⟨.operator, ['!', '=']⟩, ⟨.number, ['.', '5', '.']⟩,
    ⟨.bracket, [')']⟩, ⟨.plain, ['!']⟩, ⟨.plain, ['.']⟩, ⟨.plain, [' ']⟩, ⟨.keyword, ['g', 'a']⟩,
    ⟨.comment, ['#']⟩, ⟨.plain, ['\n']⟩, ⟨.string, ['"', '\n']⟩]

theorem grammatical_sampleCut :
    (∀ part ∈ sampleCut, part.text ≠ []) ∧ join sampleCut = "ƙ1 (x.ga!=.5.)!. ga#\n\"\n".toList ∧
      Grammatical sampleCut :=
  ⟨by decide, by decide,
    (scan_eq_iff_grammatical _ sampleCut (by decide) rfl).mp (by decide +kernel)⟩

end Grammar

end Dabara
