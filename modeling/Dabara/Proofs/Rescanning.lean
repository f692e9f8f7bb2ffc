import Dabara.Proofs.HighlightsAbove
import Mathlib.Data.List.DropRight

set_option autoImplicit false

namespace Dabara

open Fragment (startsWith join front)

namespace Grammar

theorem front_dot {rest : Text} (named : startsWith isIdentStart rest = true) :
    front '.' rest =
      ([dot, ⟨.methodCall, rest.takeWhile isIdentChar⟩], rest.dropWhile isIdentChar) := by
  have cut := front_method (isWord_name named)
  rwa [List.takeWhile_append_dropWhile] at cut

/-- Nothing but the dot before it lets a fragment be a method. -/
theorem Admits.category_ne {previous : Option Fragment} {part : Fragment} {rest : Text}
    (admitted : Admits previous part rest) (undotted : previous ≠ some Grammar.dot) :
    part.category ≠ .methodCall := by
  cases admitted with
  | word _ _ classified => cases classified <;> simp
  | method dotted _ => exact absurd dotted undotted
  | dot _ => simp [Grammar.dot]
  | _ => simp

end Grammar

open Grammar

/-- No text begins with a method. -/
theorem category_ne_of_head?_fragments {source : Text} {part : Fragment}
    (first : (fragments source).head? = some part) : part.category ≠ .methodCall := by
  have grammatical := grammaticalFrom_fragments source none (by simp)
  obtain ⟨rest, shape⟩ := List.head?_eq_some_iff.mp first
  rw [shape] at grammatical
  exact grammatical.1.category_ne (by simp)

theorem fragments_join_of_append {second : List Fragment}
    (whole : ∀ part, second.head? = some part → part.category ≠ .methodCall) (source : Text) :
    ∀ first, fragments source = first ++ second → fragments (join second) = second := by
  fun_induction fragments source with
  | case1 =>
      intro first split
      obtain ⟨_, rfl⟩ := List.append_eq_nil_iff.mp split.symm
      rw [Fragment.join_nil, fragments_nil]
  | case2 c rest cut ih =>
      intro first split
      cases first with
      | nil =>
          have same : second = fragments (c :: rest) := by
            rw [fragments_cons]
            exact split.symm
          rw [same, join_fragments]
      | cons part more =>
          rcases front_cases c rest with ⟨one, single, _, _⟩ | ⟨name, double, _⟩
          · have shape : cut.1 = [one] := single
            rw [shape, List.singleton_append, List.cons_append] at split
            exact ih more (List.cons.inj split).2
          · have shape : cut.1 = [dot, ⟨.methodCall, name⟩] := double
            rw [shape, List.cons_append, List.singleton_append, List.cons_append] at split
            have behind := (List.cons.inj split).2
            -- Between the two fragments of this rule nothing can begin.
            cases more with
            | nil =>
                rw [List.nil_append] at behind
                exact absurd rfl (whole ⟨.methodCall, name⟩ (by rw [← behind]; rfl))
            | cons method more =>
                rw [List.cons_append] at behind
                exact ih more (List.cons.inj behind).2

/-- The fragments behind a boundary are those of the text behind it, unless the boundary is between
a dot and its method. -/
theorem fragments_join_iff {source : Text} {first second : List Fragment}
    (split : fragments source = first ++ second) :
    fragments (join second) = second ↔
      ∀ part, second.head? = some part → part.category ≠ .methodCall := by
  constructor
  · intro again part head
    rw [← again] at head
    exact category_ne_of_head?_fragments head
  · intro whole
    exact fragments_join_of_append whole source first split

def Token.shift (offset : Nat) (token : Token) : Token :=
  { token with start := offset + token.start }

theorem locate_add (offset start : Nat) (parts : List Fragment) :
    locate (offset + start) parts = (locate start parts).map (Token.shift offset) := by
  induction parts generalizing start with
  | nil => rfl
  | cons part rest ih =>
      rw [locate_cons, locate_cons, List.map_cons, Nat.add_assoc, ih]
      rfl

theorem length_locate (offset : Nat) (parts : List Fragment) :
    (locate offset parts).length = parts.length := by
  have same := congrArg List.length (map_toFragment_locate offset parts)
  rwa [List.length_map] at same

theorem locate_injective {offset : Nat} {first second : List Fragment}
    (same : locate offset first = locate offset second) : first = second := by
  rw [← map_toFragment_locate offset first, same, map_toFragment_locate]

/-- A part of located tokens is located behind the part before it. -/
theorem locate_of_append {offset : Nat} {parts : List Fragment} {first second : List Token}
    (split : locate offset parts = first ++ second) :
    first = locate offset (first.map Token.toFragment) ∧
      second = locate (offset + byteLength (first.flatMap (·.text)))
        (second.map Token.toFragment) := by
  have pieces := map_toFragment_locate offset parts
  rw [split, List.map_append] at pieces
  rw [← pieces, locate_append, Fragment.join, List.flatMap_map] at split
  apply List.append_inj split.symm
  rw [length_locate, List.length_map]

theorem fragments_of_append {source : Text} {first second : List Token}
    (split : scan source = first ++ second) :
    fragments source = first.map Token.toFragment ++ second.map Token.toFragment := by
  rw [← List.map_append, ← split]
  exact (map_toFragment_locate 0 (fragments source)).symm

/-- The text behind the first tokens of a source is the text of the others. -/
theorem dropBytes_of_append {source : Text} {first second : List Token}
    (split : scan source = first ++ second) :
    dropBytes (byteLength (first.flatMap (·.text))) source =
      join (second.map Token.toFragment) := by
  have whole := flatMap_text_scan source
  rw [split, List.flatMap_append] at whole
  rw [← whole, dropBytes_append, Fragment.join, List.flatMap_map]

/-- A scan can begin anew between any two tokens, and gives the tokens that stand there in the scan
of the whole source, unless it would have to begin with a method. -/
theorem scan_resumes_iff (source : Text) {first second : List Token}
    (split : scan source = first ++ second) :
    second = (scan (dropBytes (byteLength (first.flatMap (·.text))) source)).map
        (Token.shift (byteLength (first.flatMap (·.text)))) ↔
      ∀ token, second.head? = some token → token.category ≠ .methodCall := by
  obtain ⟨_, located⟩ := locate_of_append split
  rw [Nat.zero_add] at located
  have shifted : (scan (join (second.map Token.toFragment))).map
        (Token.shift (byteLength (first.flatMap (·.text)))) =
      locate (byteLength (first.flatMap (·.text)))
        (fragments (join (second.map Token.toFragment))) :=
    (locate_add _ 0 _).symm
  rw [dropBytes_of_append split, shifted]
  calc
    _ ↔ fragments (join (second.map Token.toFragment)) = second.map Token.toFragment := by
      constructor
      · intro same
        exact (locate_injective (located.symm.trans same)).symm
      · intro same
        rw [same]
        exact located
    _ ↔ ∀ part, (second.map Token.toFragment).head? = some part → part.category ≠ .methodCall :=
      fragments_join_iff (fragments_of_append split)
    _ ↔ ∀ token, second.head? = some token → token.category ≠ .methodCall := by
      simp [List.head?_map]

/-- A scan that begins anew behind a letter of two bytes. -/
theorem scan_resumes_iff_letter :
    scan "ƙ=.5x".toList =
        [⟨⟨.plain, ['ƙ']⟩, 0⟩] ++
          [⟨⟨.operator, ['=']⟩, 2⟩, ⟨⟨.number, ['.', '5']⟩, 3⟩, ⟨⟨.plain, ['x']⟩, 5⟩] ∧
      [⟨⟨.operator, ['=']⟩, 2⟩, ⟨⟨.number, ['.', '5']⟩, 3⟩, ⟨⟨.plain, ['x']⟩, 5⟩] =
        (scan "=.5x".toList).map (Token.shift 2) := by
  have split : scan "ƙ=.5x".toList =
      [⟨⟨.plain, ['ƙ']⟩, 0⟩] ++
        [⟨⟨.operator, ['=']⟩, 2⟩, ⟨⟨.number, ['.', '5']⟩, 3⟩, ⟨⟨.plain, ['x']⟩, 5⟩] := by
    decide +kernel
  exact ⟨split, (scan_resumes_iff _ split).mpr (by simp)⟩

namespace Fragment

theorem quote_mem_of_mem_quoted {rest : Text} {d : Char} (member : d ∈ (quoted rest).2) :
    '"' ∈ rest := by
  by_contra absent
  have inside : ∀ c ∈ rest, (c != '"') = true := by
    intro c within
    simpa using ne_of_mem_of_not_mem within absent
  rw [quoted, List.dropWhile_eq_nil_iff.mpr inside] at member
  cases member

/-- A rule that leaves something other than spaces behind it has come to its end. -/
theorem closed_of_visible {c d : Char} {text : Text} (member : d ∈ (front c text).2)
    (visible : (d == ' ') = false) : Closed c text := by
  have nonempty : text ≠ [] := by
    intro empty
    have short := length_front_le c text
    have long := List.length_pos_of_mem member
    rw [empty] at short long
    simp only [List.length_nil] at short
    omega
  intro rest
  revert member
  rw [front, front]
  simp only [startsWith_append nonempty]
  split
  · intro member
    obtain ⟨stop, inside, stops⟩ := exists_stop_of_mem_dropWhile member
    exact run_append_of_stop (· != '\n') inside stops .comment c rest
  split
  · intro member
    exact quoted_append_of_stop (quote_mem_of_mem_quoted member) rest
  split
  · intro member
    obtain ⟨stop, inside, stops⟩ := exists_stop_of_mem_dropWhile member
    exact run_append_of_stop isNumberChar inside stops .number c rest
  split
  · intro member
    exact word_append_of_stop member visible c rest
  split
  · intro member
    obtain ⟨stop, inside, stops⟩ := exists_stop_of_mem_dropWhile member
    exact method_append_of_stop inside stops rest
  split
  · intro member
    rw [List.tail_append_of_ne_nil nonempty]
  split
  · exact fun _ => rfl
  split
  · exact fun _ => rfl
  · exact fun _ => rfl

/-- A text that holds more than spaces. -/
def Visible (text : Text) : Prop :=
  ∃ c ∈ text, (c == ' ') = false

/-- Every fragment but a space by itself holds more than spaces. -/
theorem visible_of_mem_front {c : Char} {rest : Text} {part : Fragment}
    (member : part ∈ (front c rest).1) (other : part ≠ ⟨.plain, [' ']⟩) : Visible part.text := by
  have whole := join_front c rest
  rcases front_cases c rest with ⟨one, single, _, _⟩ | ⟨name, double, word⟩
  · rw [single] at member whole
    obtain rfl := List.mem_singleton.mp member
    have nonempty : part.text ≠ [] := text_ne_nil_of_mem_front (by rw [single]; simp)
    obtain ⟨first, more, shape⟩ := List.exists_cons_of_ne_nil nonempty
    have same : first = c := by
      rw [join_cons, shape, List.cons_append, List.cons_append] at whole
      exact (List.cons.inj whole).1
    refine ⟨first, by rw [shape]; exact List.mem_cons_self, ?_⟩
    rw [beq_eq_false_iff_ne]
    intro space
    have cut : front c rest = ([⟨.plain, [' ']⟩], rest) := by
      rw [← same, space]
      rfl
    rw [cut] at single
    exact other (List.cons.inj single).1.symm
  · rw [double] at member
    rcases List.mem_cons.mp member with rfl | second
    · exact ⟨'.', by simp [dot], rfl⟩
    · obtain rfl := List.mem_singleton.mp second
      cases name with
      | nil => exact absurd word.starts (by simp [startsWith])
      | cons first more =>
          refine ⟨first, List.mem_cons_self, ?_⟩
          rw [beq_eq_false_iff_ne]
          rintro rfl
          have letter : isIdentStart ' ' = true := word.starts
          exact absurd letter (by decide)

end Fragment

open Fragment (Visible)

theorem visible_of_mem_fragments {source : Text} {part : Fragment}
    (member : part ∈ fragments source) (other : part ≠ ⟨.plain, [' ']⟩) : Visible part.text := by
  fun_induction fragments source with
  | case1 => simp at member
  | case2 c rest cut ih =>
      rcases List.mem_append.mp member with first | later
      · exact Fragment.visible_of_mem_front first other
      · exact ih later

/-- Fragments in front of one that holds more than spaces stay when text is appended. -/
theorem fragments_append_of_visible {last : Fragment} {later : List Fragment}
    (visible : Visible last.text) (source back : Text) :
    ∀ parts, fragments source = parts ++ last :: later → parts <+: fragments (source ++ back) := by
  fun_induction fragments source with
  | case1 =>
      intro parts split
      simp at split
  | case2 c rest cut ih =>
      intro parts split
      -- Once a rule has come to its end, what it gave stays and the rest goes on from there.
      have goes : ∀ more, fragments cut.2 = more ++ last :: later →
          cut.1 ++ more <+: fragments (c :: rest ++ back) := by
        intro more behind
        obtain ⟨d, inside, other⟩ := visible
        have member : d ∈ cut.2 := by
          rw [← join_fragments cut.2, behind]
          simp [inside]
        have closed := Fragment.closed_of_visible member other
        rw [List.cons_append, fragments_cons, closed]
        exact List.prefix_append_right_inj _ |>.mpr (ih more behind)
      cases parts with
      | nil => exact List.nil_prefix
      | cons part more =>
          rcases front_cases c rest with ⟨one, single, _, _⟩ | ⟨name, double, word⟩
          · have shape : cut.1 = [one] := single
            rw [shape, List.singleton_append, List.cons_append] at split
            obtain ⟨rfl, behind⟩ := List.cons.inj split
            have kept := goes more behind
            rwa [shape] at kept
          · have shape : cut.1 = [dot, ⟨.methodCall, name⟩] := double
            rw [shape, List.cons_append, List.singleton_append, List.cons_append] at split
            obtain ⟨rfl, behind⟩ := List.cons.inj split
            cases more with
            | nil =>
                -- The method may grow, but the dot before it stays.
                have whole : '.' :: (name ++ cut.2) = c :: rest := by
                  rw [← Fragment.join_front c rest, double]
                  simp [dot, cut]
                obtain ⟨sign, name⟩ := List.cons.inj whole
                have named : startsWith isIdentStart (rest ++ back) = true := by
                  rw [← name, List.append_assoc]
                  exact word.startsWith_append _
                rw [← sign, List.cons_append, fragments_cons, front_dot named]
                exact ⟨_, rfl⟩
            | cons method more =>
                rw [List.cons_append] at behind
                obtain ⟨rfl, past⟩ := List.cons.inj behind
                have kept := goes more past
                rwa [shape] at kept

/-- A space that stands by itself. -/
def Token.isSpace (token : Token) : Bool :=
  token.category = .plain && token.text = [' ']

/-- The tokens before the last one that is no space. -/
def steady (tokens : List Token) : List Token :=
  (tokens.rdropWhile Token.isSpace).dropLast

/-- Behind steady tokens, unless there are none, stands a token that is no space. -/
theorem steady_cases (tokens : List Token) :
    steady tokens = [] ∨
      ∃ last later, tokens = steady tokens ++ last :: later ∧ last.isSpace = false := by
  rcases List.eq_nil_or_concat (tokens.rdropWhile Token.isSpace) with none | ⟨init, last, shape⟩
  · left
    rw [steady, none]
    rfl
  · right
    rw [List.concat_eq_append] at shape
    have kept : steady tokens = init := by rw [steady, shape, List.dropLast_concat]
    obtain ⟨later, whole⟩ := List.rdropWhile_prefix Token.isSpace (l := tokens)
    have nonempty : tokens.rdropWhile Token.isSpace ≠ [] := by simp [shape]
    have visible := List.rdropWhile_last_not Token.isSpace tokens nonempty
    refine ⟨last, later, ?_, ?_⟩
    · rw [kept, ← whole, shape]
      simp
    · simpa [shape] using visible

/-- Tokens before the last one that is no space stay what and where they are, whatever is appended
to the source. -/
theorem steady_scan_append (front back : Text) : steady (scan front) <+: scan (front ++ back) := by
  rcases steady_cases (scan front) with none | ⟨last, later, split, shown⟩
  · rw [none]
    exact List.nil_prefix
  obtain ⟨located, _⟩ := locate_of_append split
  have pieces := fragments_of_append split
  rw [List.map_cons] at pieces
  have other : last.toFragment ≠ ⟨.plain, [' ']⟩ := by
    intro same
    simp [Token.isSpace, same] at shown
  have visible : Visible last.text := visible_of_mem_fragments (by rw [pieces]; simp) other
  obtain ⟨behind, whole⟩ := fragments_append_of_visible visible front back _ pieces
  have scanned : scan (front ++ back) =
      locate 0 ((steady (scan front)).map Token.toFragment ++ behind) := by
    rw [scan, whole]
  rw [scanned, locate_append, ← located]
  exact List.prefix_append _ _

end Dabara
