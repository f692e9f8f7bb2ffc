import Dabara.Proofs.Rescanning

set_option autoImplicit false

namespace Dabara

open Fragment (startsWith join front)

/-- The category that the text of a fragment has by itself, with nothing before or behind it. -/
def Fragment.ownCategory (part : Fragment) : Category :=
  match part.category with
  | .functionCall => .plain
  | .methodCall => (reservedCategory part.text).getD .plain
  | .operator => if part.text = ['.'] then .plain else .operator
  | category => category

theorem Fragment.ownCategory_operator {text : Text} (other : text ≠ ['.']) :
    ownCategory ⟨.operator, text⟩ = .operator :=
  if_neg other

namespace Grammar

theorem IsWord.alone {text rest : Text} (word : IsWord text rest) : IsWord text [] :=
  { word with maximal := rfl }

theorem IsNumber.alone {text rest : Text} (number : IsNumber text rest) : IsNumber text [] :=
  { number with maximal := ⟨rfl, rfl⟩ }

theorem StandsAlone.alone {c : Char} {rest : Text} (alone : StandsAlone c rest) :
    StandsAlone c [] :=
  { alone with
    noDot := fun _ => ⟨rfl, rfl⟩
    noUnequal := fun _ => rfl }

theorem standsAlone_dot : StandsAlone '.' [] where
  noComment := by decide
  noString := by decide
  noDigit := by decide
  noLetter := by decide
  noSign := by decide
  noBracket := by decide
  noDot := fun _ => ⟨rfl, rfl⟩
  noUnequal := fun _ => rfl

/-- Behind a word that stands by itself there is no call. -/
theorem classifies_alone (word : Text) :
    Classifies word [] ((reservedCategory word).getD .plain) :=
  (classifies_iff word [] _).mpr rfl

/-- A word keeps the category of its table, and without one it is plain by itself. -/
theorem Classifies.ownCategory {text rest : Text} {category : Category}
    (classified : Classifies text rest category) :
    Fragment.ownCategory ⟨category, text⟩ = (reservedCategory text).getD .plain := by
  have same := (classifies_iff text rest category).mp classified
  cases classified with
  | functionCall free _ | plain free _ =>
      rw [(reservedCategory_eq_none_iff text).mpr free]
      rfl
  | _ =>
      rw [Fragment.wordCategory] at same
      cases found : reservedCategory text with
      | none =>
          rw [found, Option.getD_none] at same
          split at same <;> cases same
      | some table =>
          rw [found, Option.getD_some] at same
          rw [← same]
          rfl

/-- A fragment that is admitted somewhere is admitted by itself with its own category. -/
theorem Admits.alone {previous : Option Fragment} {part : Fragment} {rest : Text}
    (admitted : Admits previous part rest) :
    Admits none ⟨part.ownCategory, part.text⟩ [] := by
  have undotted : none ≠ some Grammar.dot := by simp
  cases admitted with
  | comment sameLine _ => exact .comment sameLine (Or.inl rfl)
  | closedString unquoted => exact .closedString unquoted
  | openString unquoted => exact .openString unquoted
  | number number => exact .number number.alone
  | @word text _ category _ word classified =>
      rw [classified.ownCategory]
      exact .word undotted word.alone (classifies_alone text)
  | dot _ => exact .plain standsAlone_dot
  | @method name _ _ word => exact .word undotted word.alone (classifies_alone name)
  | comparison listed =>
      rw [Fragment.ownCategory_operator (by simp)]
      exact .comparison listed
  | @order sign _ listed _ =>
      have other : sign ≠ '.' := ne_of_mem_of_not_mem listed (by decide)
      rw [Fragment.ownCategory_operator (by simpa using other)]
      exact .order listed rfl
  | @arithmetic sign _ listed =>
      have other : sign ≠ '.' := ne_of_mem_of_not_mem listed (by decide)
      rw [Fragment.ownCategory_operator (by simpa using other)]
      exact .arithmetic listed
  | bracket listed => exact .bracket listed
  | plain alone => exact .plain alone.alone

end Grammar

open Grammar

/-- The text of a fragment by itself is one fragment. -/
theorem fragments_text_of_mem {source : Text} {part : Fragment} (member : part ∈ fragments source) :
    fragments part.text = [⟨part.ownCategory, part.text⟩] := by
  obtain ⟨before, after, split⟩ := List.append_of_mem member
  have admitted := grammatical_fragments source before part after split
  have nonempty := text_ne_nil_of_mem_fragments member
  have undotted : none ≠ some dot := by simp
  have grammatical : GrammaticalFrom none [⟨part.ownCategory, part.text⟩] :=
    ⟨admitted.alone, trivial⟩
  have again := fragments_join undotted (by simpa using nonempty) grammatical
  rwa [Fragment.join_cons, Fragment.join_nil, List.append_nil] at again

/-- The text of a token scanned by itself is one token that covers it. Its category is that of the
token; but a called name, and the dot before a method, are plain, and a method is what its name is
reserved for, or plain. -/
theorem scan_text_of_mem_scan (source : Text) {token : Token} (member : token ∈ scan source) :
    scan token.text = [⟨⟨token.ownCategory, token.text⟩, 0⟩] := by
  obtain ⟨before, after, split, _⟩ := exists_split_of_mem_locate member
  have part : token.toFragment ∈ fragments source := by
    rw [split]
    simp
  rw [scan, fragments_text_of_mem part, locate_cons, locate_nil]

/-- A method that has the name of a keyword. -/
theorem scan_text_of_mem_scan_method :
    ⟨⟨.methodCall, ['g', 'a']⟩, 2⟩ ∈ scan "x.ga(1)".toList ∧
      scan "ga".toList = [⟨⟨.keyword, ['g', 'a']⟩, 0⟩] := by
  have member : ⟨⟨.methodCall, ['g', 'a']⟩, 2⟩ ∈ scan "x.ga(1)".toList := by
    decide +kernel
  exact ⟨member, scan_text_of_mem_scan _ member⟩

def Fragment.space : Fragment :=
  ⟨.plain, [' ']⟩

def Fragment.parenthesis : Fragment :=
  ⟨.bracket, ['(']⟩

open Fragment (space parenthesis)

theorem join_replicate_space (count : Nat) :
    join (List.replicate count space) = List.replicate count ' ' := by
  induction count with
  | zero => rfl
  | succ count ih =>
      rw [List.replicate_succ, Fragment.join_cons, ih, List.replicate_succ]
      rfl

/-- Spaces are cut one by one, and a parenthesis behind them by itself. -/
theorem fragments_spaces (count : Nat) (rest : Text) :
    fragments (List.replicate count ' ' ++ '(' :: rest) =
      List.replicate count space ++ parenthesis :: fragments rest := by
  induction count with
  | zero =>
      rw [List.replicate_zero, List.nil_append, fragments_cons]
      rfl
  | succ count ih =>
      have cut : front ' ' (List.replicate count ' ' ++ '(' :: rest) =
          ([space], List.replicate count ' ' ++ '(' :: rest) := rfl
      rw [List.replicate_succ, List.cons_append, fragments_cons, cut, ih, List.replicate_succ]
      rfl

/-- A call can be told from the fragments as from the text, where the text is cut into them. -/
theorem callFollows_join_iff {parts : List Fragment} (whole : fragments (join parts) = parts) :
    CallFollows (join parts) ↔
      ∃ count later, parts = List.replicate count space ++ parenthesis :: later := by
  constructor
  · rintro ⟨count, after, text⟩
    rw [text, fragments_spaces] at whole
    exact ⟨count, _, whole.symm⟩
  · rintro ⟨count, later, rfl⟩
    refine ⟨count, join later, ?_⟩
    rw [Fragment.join_append, join_replicate_space, Fragment.join_cons]
    rfl

theorem Grammar.Classifies.functionCall_iff {text rest : Text} {category : Category}
    (classified : Classifies text rest category) (free : ¬ IsReserved text) :
    category = .functionCall ↔ CallFollows rest := by
  cases classified with
  | keyword listed => exact absurd (Or.inl listed) free
  | declaration listed => exact absurd (Or.inr (Or.inl listed)) free
  | boolean listed => exact absurd (Or.inr (Or.inr (Or.inl listed))) free
  | builtin listed => exact absurd (Or.inr (Or.inr (Or.inr listed))) free
  | functionCall _ called => exact iff_of_true rfl called
  | plain _ uncalled => exact iff_of_false (by simp) uncalled

/-- What is cut off behind a name is cut as it would be by itself. -/
theorem fragments_join_behind_name {source : Text} {before after : List Fragment} {part : Fragment}
    (split : fragments source = before ++ part :: after)
    (named : startsWith isIdentStart part.text = true) : fragments (join after) = after := by
  have undotted : part ≠ dot := by
    rintro rfl
    exact absurd named (by decide)
  rw [List.append_cons] at split
  apply fragments_join_of_append _ source (before ++ [part]) split
  intro next first
  obtain ⟨later, rfl⟩ := List.head?_eq_some_iff.mp first
  have admitted := grammatical_fragments source (before ++ [part]) next later split
  rw [List.getLast?_concat] at admitted
  exact admitted.category_ne (by simpa using undotted)

/-- A name that is neither reserved nor a method is a function call exactly if the tokens behind it
are any number of spaces, each by itself, and then an opening parenthesis. -/
theorem functionCall_iff_tokens_behind (source : Text) {before after : List Token} {token : Token}
    (split : scan source = before ++ token :: after)
    (named : startsWith isIdentStart token.text = true) (free : ¬ IsReserved token.text)
    (unbound : token.category ≠ .methodCall) :
    token.category = .functionCall ↔
      ∃ count later,
        after.map Token.toFragment = List.replicate count space ++ parenthesis :: later := by
  have parts := fragments_of_append split
  rw [List.map_cons] at parts
  have admitted := grammatical_fragments source _ token.toFragment _ parts
  obtain ⟨_, ⟨_, classified⟩ | ⟨_, method⟩⟩ := admitted.named_cases named
  · rw [classified.functionCall_iff free]
    exact callFollows_join_iff (fragments_join_behind_name parts named)
  · exact absurd method unbound

/-- A name with two spaces before its parenthesis. -/
theorem functionCall_iff_tokens_behind_spaces :
    scan "ƙa  (1)".toList =
        [] ++ ⟨⟨.functionCall, ['ƙ', 'a']⟩, 0⟩ ::
          [⟨⟨.plain, [' ']⟩, 3⟩, ⟨⟨.plain, [' ']⟩, 4⟩, ⟨⟨.bracket, ['(']⟩, 5⟩,
            ⟨⟨.number, ['1']⟩, 6⟩, ⟨⟨.bracket, [')']⟩, 7⟩] ∧
      startsWith isIdentStart ['ƙ', 'a'] = true ∧ ¬ IsReserved ['ƙ', 'a'] ∧
      ∃ count later,
        [space, space, parenthesis, ⟨.number, ['1']⟩, ⟨.bracket, [')']⟩] =
          List.replicate count space ++ parenthesis :: later := by
  have split : scan "ƙa  (1)".toList =
      [] ++ ⟨⟨.functionCall, ['ƙ', 'a']⟩, 0⟩ ::
        [⟨⟨.plain, [' ']⟩, 3⟩, ⟨⟨.plain, [' ']⟩, 4⟩, ⟨⟨.bracket, ['(']⟩, 5⟩,
          ⟨⟨.number, ['1']⟩, 6⟩, ⟨⟨.bracket, [')']⟩, 7⟩] := by
    decide +kernel
  have free : ¬ IsReserved ['ƙ', 'a'] := by
    rw [← reservedCategory_eq_none_iff]
    decide
  exact ⟨split, by decide, free,
    (functionCall_iff_tokens_behind _ split (by decide) free (by decide)).mp rfl⟩

end Dabara
