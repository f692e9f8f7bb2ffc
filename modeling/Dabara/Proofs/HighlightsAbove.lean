import Dabara.Proofs.Grammar
import Dabara.Proofs.LineHighlights
import Mathlib.Data.List.TakeWhile

set_option autoImplicit false

namespace Dabara

/-- A text of whole lines: nothing at all, or a break at the end. -/
def WholeLines (text : Text) : Prop :=
  ∀ c, text.getLast? = some c → isLineBreak c = true

/-- Breaks in a text; the pair of carriage return and line feed counts once. -/
def breakCount : Text → Nat
  | [] => 0
  | '\r' :: '\n' :: rest => breakCount rest + 1
  | c :: rest => if isLineBreak c then breakCount rest + 1 else breakCount rest

theorem length_extendFirst {c : Char} {parts : List Text} (nonempty : parts ≠ []) :
    (extendFirst c parts).length = parts.length := by
  cases parts with
  | nil => exact absurd rfl nonempty
  | cons line rest => rfl

/-- A text has one more line than breaks. -/
theorem length_lines (text : Text) : (lines text).length = breakCount text + 1 := by
  fun_induction lines text with
  | case1 => rfl
  | case2 rest ih => rw [List.length_cons, ih, breakCount]
  | case3 c rest notPair breaks ih =>
      rw [List.length_cons, ih, breakCount, if_pos breaks]
      exact notPair
  | case4 c rest notPair inside ih =>
      rw [length_extendFirst (lines_ne_nil rest), ih, breakCount, if_neg inside]
      exact notPair

theorem WholeLines.append_right {first second : Text} (whole : WholeLines (first ++ second)) :
    WholeLines second := by
  intro c last
  apply whole
  rw [List.getLast?_append, last, Option.some_or]

theorem isLineBreak_cases {c : Char} (breaks : isLineBreak c = true) :
    c = '\n' ∨ c = '\r' ∨ c = '\x0b' ∨ c = '\x0c' ∨ c = '\u0085' ∨ c = '\u2028' ∨
      c = '\u2029' := by
  simpa [isLineBreak, or_assoc] using breaks

theorem notWord_of_isLineBreak {c : Char} (breaks : isLineBreak c = true) :
    isIdentChar c = false ∧ Fragment.isNumberChar c = false ∧ (c == ' ') = false := by
  rcases isLineBreak_cases breaks with rfl | rfl | rfl | rfl | rfl | rfl | rfl <;> decide

/-- No rule but the last applies to a break. -/
theorem standsAlone_of_isLineBreak {c : Char} (breaks : isLineBreak c = true) (rest : Text) :
    Grammar.StandsAlone c rest := by
  have every : c ≠ '#' ∧ c ≠ '"' ∧ c.isDigit = false ∧ isIdentStart c = false ∧
      c ∉ ['=', '<', '>', '+', '-', '*', '/'] ∧ c ∉ ['(', ')', '\x7b', '\x7d', '[', ']'] ∧
      c ≠ '.' ∧ c ≠ '!' := by
    rcases isLineBreak_cases breaks with rfl | rfl | rfl | rfl | rfl | rfl | rfl <;> decide
  obtain ⟨comment, string, digit, letter, sign, bracket, dot, mark⟩ := every
  exact ⟨comment, string, digit, letter, sign, bracket, fun same => absurd same dot,
    fun same => absurd same mark⟩

namespace Fragment

theorem startsWith_append {front : Text} (nonempty : front ≠ []) (holds : Char → Bool)
    (rest : Text) : startsWith holds (front ++ rest) = startsWith holds front := by
  cases front with
  | nil => exact absurd rfl nonempty
  | cons c more => rfl

section Stopped

variable (holds : Char → Bool) {front : Text} {c : Char} (member : c ∈ front)
  (stops : holds c = false)
include member stops

theorem dropWhile_ne_nil_of_stop : front.dropWhile holds ≠ [] := by
  intro empty
  rw [List.dropWhile_eq_nil_iff.mp empty c member] at stops
  cases stops

theorem mem_dropWhile_of_stop : c ∈ front.dropWhile holds := by
  rw [← List.takeWhile_append_dropWhile (p := holds) (l := front)] at member
  rcases List.mem_append.mp member with taken | left
  · rw [holds_of_mem_takeWhile taken] at stops
    cases stops
  · exact left

/-- A run that stops within a text is the same whatever follows the text. -/
theorem takeWhile_append_of_stop (rest : Text) :
    (front ++ rest).takeWhile holds = front.takeWhile holds := by
  have shorter : ¬ (front.takeWhile holds).length = front.length := by
    intro same
    have every := List.takeWhile_eq_self_iff.mp
      ((List.takeWhile_prefix holds).eq_of_length same)
    rw [every c member] at stops
    cases stops
  rw [List.takeWhile_append, if_neg shorter]

theorem dropWhile_append_of_stop (rest : Text) :
    (front ++ rest).dropWhile holds = front.dropWhile holds ++ rest := by
  have left := dropWhile_ne_nil_of_stop holds member stops
  rw [List.dropWhile_append, if_neg (by simpa using left)]

theorem run_append_of_stop (category : Category) (first : Char) (rest : Text) :
    run category holds first (front ++ rest) =
      ((run category holds first front).1, (run category holds first front).2 ++ rest) := by
  rw [run, takeWhile_append_of_stop holds member stops, dropWhile_append_of_stop holds member stops,
    run]

end Stopped

theorem quoted_append_of_stop {front : Text} (closed : '"' ∈ front) (rest : Text) :
    quoted (front ++ rest) = ((quoted front).1, (quoted front).2 ++ rest) := by
  obtain ⟨quote, after, shape⟩ :=
    List.exists_cons_of_ne_nil (dropWhile_ne_nil_of_stop (· != '"') closed rfl)
  rw [quoted, quoted, takeWhile_append_of_stop (· != '"') closed rfl,
    dropWhile_append_of_stop (· != '"') closed rfl, shape]
  rfl

/-- What follows the spaces behind a word stands in the same text if that does not end in one. -/
theorem opensCall_append_of_stop {front : Text} {c : Char} (member : c ∈ front)
    (other : (c == ' ') = false) (rest : Text) : opensCall (front ++ rest) = opensCall front := by
  rw [opensCall, dropWhile_append_of_stop (· == ' ') member other, opensCall]
  exact startsWith_append (dropWhile_ne_nil_of_stop (· == ' ') member other) _ _

theorem exists_stop_of_mem_dropWhile {holds : Char → Bool} {front : Text} {c : Char}
    (member : c ∈ front.dropWhile holds) : ∃ d ∈ front, holds d = false := by
  have left : ¬ ∀ d ∈ front, holds d = true := by
    intro every
    rw [List.dropWhile_eq_nil_iff.mpr every] at member
    cases member
  simpa using left

theorem word_append_of_stop {front : Text} {c : Char} (member : c ∈ front.dropWhile isIdentChar)
    (other : (c == ' ') = false) (first : Char) (rest : Text) :
    word first (front ++ rest) = ((word first front).1, (word first front).2 ++ rest) := by
  obtain ⟨d, inside, letter⟩ := exists_stop_of_mem_dropWhile member
  have call := opensCall_append_of_stop member other rest
  rw [word, word, takeWhile_append_of_stop isIdentChar inside letter,
    dropWhile_append_of_stop isIdentChar inside letter]
  dsimp only
  rw [wordCategory, call, wordCategory]

theorem method_append_of_stop {front : Text} {c : Char} (member : c ∈ front)
    (letter : isIdentChar c = false) (rest : Text) :
    method (front ++ rest) = ((method front).1, (method front).2 ++ rest) := by
  rw [method, method, takeWhile_append_of_stop isIdentChar member letter,
    dropWhile_append_of_stop isIdentChar member letter]

/-- A rule that comes to its end within a text. -/
def Closed (c : Char) (text : Text) : Prop :=
  ∀ rest, front c (text ++ rest) = ((front c text).1, (front c text).2 ++ rest)

/-- A rule that takes all of a text and may go on behind it. -/
def Open (c : Char) (text : Text) : Prop :=
  ∃ category, ∀ rest, ∃ more after,
    front c (text ++ rest) = ([⟨category, c :: text ++ more⟩], after)

theorem comment_closed_or_open (text : Text) : Closed '#' text ∨ Open '#' text := by
  have comment : ∀ rest, front '#' rest = run .comment (· != '\n') '#' rest := fun _ => if_pos rfl
  by_cases fed : '\n' ∈ text
  · refine Or.inl fun rest => ?_
    rw [comment, comment]
    exact run_append_of_stop (· != '\n') fed rfl .comment '#' rest
  · refine Or.inr ⟨.comment, fun rest => ?_⟩
    have inside : ∀ c ∈ text, (c != '\n') = true := by
      intro c member
      simpa using ne_of_mem_of_not_mem member fed
    rw [comment, run, List.takeWhile_append_of_pos inside]
    exact ⟨_, _, rfl⟩

theorem string_closed_or_open (text : Text) : Closed '"' text ∨ Open '"' text := by
  have string : ∀ rest, front '"' rest = quoted rest := by
    intro rest
    rw [front, if_neg (by decide), if_pos rfl]
  by_cases closed : '"' ∈ text
  · refine Or.inl fun rest => ?_
    rw [string, string]
    exact quoted_append_of_stop closed rest
  · refine Or.inr ⟨.string, fun rest => ?_⟩
    have inside : ∀ c ∈ text, (c != '"') = true := by
      intro c member
      simpa using ne_of_mem_of_not_mem member closed
    rw [string, quoted, List.takeWhile_append_of_pos inside]
    split
    · exact ⟨_, _, rfl⟩
    · next quote after _ =>
        refine ⟨rest.takeWhile (· != '"') ++ [quote], after, ?_⟩
        simp

/-- Where a text ends with a break, only comments and strings may go on behind it. -/
theorem closed_or_open {c : Char} {text : Text} (whole : WholeLines (c :: text)) :
    Closed c text ∨ Open c text := by
  rcases List.eq_nil_or_concat text with rfl | ⟨body, last, rfl⟩
  · -- The break itself.
    have alone := standsAlone_of_isLineBreak (whole c rfl)
    refine Or.inl fun rest => ?_
    rw [Grammar.front_plain (alone _), Grammar.front_plain (alone _)]
  by_cases comment : c = '#'
  · rw [comment]
    exact comment_closed_or_open _
  by_cases string : c = '"'
  · rw [string]
    exact string_closed_or_open _
  · have nonempty : body.concat last ≠ [] := by simp
    have member : last ∈ body.concat last := by simp
    have breaks : isLineBreak last = true := by
      apply whole
      rw [List.concat_eq_append, ← List.cons_append]
      exact List.getLast?_concat
    obtain ⟨letter, number, space⟩ := notWord_of_isLineBreak breaks
    have left := mem_dropWhile_of_stop isIdentChar member letter
    refine Or.inl fun rest => ?_
    rw [front, front, if_neg comment, if_neg comment, if_neg string, if_neg string]
    simp only [startsWith_append nonempty]
    split
    · exact run_append_of_stop isNumberChar member number .number c rest
    split
    · exact word_append_of_stop left space c rest
    split
    · exact method_append_of_stop member letter rest
    split
    · rw [List.tail_append_of_ne_nil nonempty]
    split
    · rfl
    split
    · rfl
    · rfl

end Fragment

/-- How the fragments of a text begin, whatever follows it: with fragments that end where it ends,
or with fragments up to one that is still open there. -/
inductive Begins (front : Text) : Prop
  | closed (parts : List Fragment) (whole : Fragment.join parts = front)
      (same : ∀ rest, fragments (front ++ rest) = parts ++ fragments rest) : Begins front
  | opened (parts : List Fragment) (last : Fragment)
      (whole : Fragment.join parts ++ last.text = front)
      (same : ∀ rest, ∃ more later,
        fragments (front ++ rest) = parts ++ ⟨last.category, last.text ++ more⟩ :: later) :
      Begins front

theorem Begins.behind {first : List Fragment} {front text : Text} (begins : Begins text)
    (whole : Fragment.join first ++ text = front)
    (same : ∀ rest, fragments (front ++ rest) = first ++ fragments (text ++ rest)) :
    Begins front := by
  cases begins with
  | closed parts joined later =>
      refine .closed (first ++ parts) ?_ ?_
      · rw [Fragment.join_append, joined, whole]
      · intro rest
        rw [same, later, List.append_assoc]
  | opened parts last joined later =>
      refine .opened (first ++ parts) last ?_ ?_
      · rw [Fragment.join_append, List.append_assoc, joined, whole]
      · intro rest
        obtain ⟨more, after, shape⟩ := later rest
        exact ⟨more, after, by rw [same, shape, List.append_assoc]⟩

theorem begins_of_wholeLines {front : Text} (whole : WholeLines front) : Begins front := by
  fun_induction fragments front with
  | case1 => exact .closed [] rfl fun _ => rfl
  | case2 c rest cut ih =>
      have joined : Fragment.join cut.1 ++ cut.2 = c :: rest := Fragment.join_front c rest
      -- An open fragment has taken all of the text, so nothing is left to be cut.
      rcases Fragment.closed_or_open whole with closed | opened
      · have later : WholeLines cut.2 := by
          rw [← joined] at whole
          exact whole.append_right
        refine (ih later).behind joined ?_
        intro more
        rw [List.cons_append, fragments_cons, closed]
      · obtain ⟨category, same⟩ := opened
        refine .opened [] ⟨category, c :: rest⟩ rfl ?_
        intro behind
        obtain ⟨more, after, shape⟩ := same behind
        refine ⟨more, fragments after, ?_⟩
        rw [List.cons_append, fragments_cons, shape]
        rfl

/-- What stands behind a line's text shows nothing on it. -/
theorem filterMap_shown_of_behind {span : LineSpan} {offset : Nat} (behind : span.textStop ≤ offset)
    (parts : List Fragment) : (locate offset parts).filterMap (Token.shown span) = [] := by
  rw [List.filterMap_eq_nil_iff]
  intro token member
  have start := (contiguous_locate offset parts).start_le member
  unfold Token.shown
  split
  · rfl
  · exact Token.clip_eq_none_of_behind (Nat.le_trans behind start)

/-- Where a token stops behind a line's text does not matter to the line. -/
theorem Token.shown_of_stop_le {first second : Token} {span : LineSpan}
    (start : first.start = second.start) (category : first.category = second.category)
    (firstStop : span.textStop ≤ first.stop) (secondStop : span.textStop ≤ second.stop) :
    first.shown span = second.shown span := by
  rw [shown, shown, clip, clip, start, category, Nat.min_eq_right firstStop,
    Nat.min_eq_right secondStop]

/-- What is shown on a line does not depend on what follows the whole lines it is one of. -/
theorem filterMap_shown_append {front : Text} (begins : Begins front) {span : LineSpan}
    (above : span.textStop ≤ byteLength front) (rest : Text) :
    (scan (front ++ rest)).filterMap (Token.shown span) =
      (scan front).filterMap (Token.shown span) := by
  suffices fixed : ∃ highlights, ∀ rest,
      (scan (front ++ rest)).filterMap (Token.shown span) = highlights by
    obtain ⟨highlights, every⟩ := fixed
    have alone := every []
    rw [List.append_nil] at alone
    rw [every rest, alone]
  cases begins with
  | closed parts whole same =>
      refine ⟨(locate 0 parts).filterMap (Token.shown span), fun rest => ?_⟩
      have behind : span.textStop ≤ 0 + byteLength front := by rwa [Nat.zero_add]
      rw [scan, same, locate_append, List.filterMap_append, whole, filterMap_shown_of_behind behind,
        List.append_nil]
  | opened parts last whole same =>
      let start := 0 + byteLength (Fragment.join parts)
      have total : start + byteLength last.text = byteLength front := by
        rw [← whole, byteLength_append]
        omega
      refine ⟨(locate 0 parts).filterMap (Token.shown span) ++
        (Token.shown span ⟨last, start⟩).toList, fun rest => ?_⟩
      -- The open fragment stops behind the line in every text, so how far behind does not matter.
      obtain ⟨more, later, shape⟩ := same rest
      have behind : span.textStop ≤ start + byteLength (last.text ++ more) := by
        rw [byteLength_append]
        omega
      have cut : Token.shown span ⟨⟨last.category, last.text ++ more⟩, start⟩ =
          Token.shown span ⟨last, start⟩ := by
        refine Token.shown_of_stop_le rfl rfl behind ?_
        change span.textStop ≤ start + byteLength last.text
        omega
      rw [scan, shape, locate_append, List.filterMap_append, locate_cons, List.filterMap_cons, cut,
        filterMap_shown_of_behind behind]
      cases Token.shown span ⟨last, start⟩ <;> rfl

/-- Whole lines, and the start of an empty one behind them. -/
theorem lines_of_wholeLines {front : Text} (whole : WholeLines front) :
    ∃ heads, lines front = heads ++ [[]] ∧ Leads heads [] ∧ heads.flatten = front := by
  obtain ⟨heads, last, shape⟩ := (List.eq_nil_or_concat (lines front)).resolve_left
    (lines_ne_nil front)
  rw [List.concat_eq_append] at shape
  have lined := lined_lines front
  rw [shape] at lined
  obtain ⟨leads, lastLined⟩ := (lined_append_iff (List.cons_ne_nil last [])).mp lined
  have unbroken : Unbroken last := by
    cases lastLined with
    | last unbroken => exact unbroken
    | cons _ _ later => exact absurd rfl later.ne_nil
  have joined : heads.flatten ++ last = front := by
    rw [← lines_flatten front, shape]
    simp
  have empty : last = [] := by
    rw [← joined] at whole
    rcases List.eq_nil_or_concat last with rfl | ⟨body, c, rfl⟩
    · rfl
    · rw [List.concat_eq_append] at unbroken whole
      have breaks := whole.append_right c List.getLast?_concat
      rw [unbroken c (by simp)] at breaks
      cases breaks
  subst empty
  refine ⟨heads, shape, by simpa using leads, by simpa using joined⟩

/-- Whole lines stay what they are when a text follows, but for the break of the last one. -/
theorem getElem?_lines_append {front : Text} (whole : WholeLines front) (rest : Text) {index : Nat}
    {line : Text} (present : (lines front)[index]? = some line)
    (above : index + 1 < (lines front).length) :
    ∃ other, (lines (front ++ rest))[index]? = some other ∧
      (lines (front ++ rest)).take index = (lines front).take index ∧
      trimBreak other = trimBreak line := by
  obtain ⟨heads, shape, leads, joined⟩ := lines_of_wholeLines whole
  have inside : index < heads.length := by
    rw [shape, List.length_append, List.length_singleton] at above
    omega
  rw [shape, List.getElem?_append_left inside] at present
  by_cases apart : Apart front rest
  · have later : lines (front ++ rest) = heads ++ lines rest := by
      have lined : Lined (heads ++ lines rest) := by
        rw [lined_append_iff (lines_ne_nil rest), lines_flatten]
        exact ⟨leads.replace (by rwa [joined]), lined_lines rest⟩
      have cut := lined.lines_flatten
      rwa [List.flatten_append, lines_flatten, joined] at cut
    refine ⟨line, ?_, ?_, rfl⟩
    · rw [later, List.getElem?_append_left inside, present]
    · rw [later, shape, List.take_append_of_le_length (Nat.le_of_lt inside),
        List.take_append_of_le_length (Nat.le_of_lt inside)]
  · obtain ⟨last, feed⟩ := not_not.mp apart
    obtain ⟨tail, rfl⟩ := List.head?_eq_some_iff.mp feed
    rw [← joined] at last
    obtain ⟨init, final, rfl, later, trimmed⟩ := lines_append_of_return leads last tail
    rw [joined] at later
    rw [List.length_append, List.length_singleton] at inside
    have within : index ≤ init.length := Nat.lt_succ_iff.mp inside
    rw [later, shape, List.append_assoc, List.take_append_of_le_length within,
      List.take_append_of_le_length within]
    by_cases earlier : index < init.length
    · rw [List.getElem?_append_left earlier] at present ⊢
      exact ⟨line, present, rfl, rfl⟩
    · have same : index = init.length := by omega
      subst same
      rw [List.getElem?_append_right (Nat.le_refl _), Nat.sub_self] at present ⊢
      have final : final = line := by simpa using present
      exact ⟨_, rfl, rfl, by rw [trimmed, final]⟩

/-- The text of a whole line stands in the same bytes, whatever follows the whole lines. -/
theorem getElem?_lineSpans_append {front : Text} (whole : WholeLines front) (rest : Text)
    {index : Nat} (above : index < breakCount front) :
    ∃ span stop, (lineSpans front)[index]? = some span ∧ span.textStop ≤ byteLength front ∧
      (lineSpans (front ++ rest))[index]? = some { span with stop } := by
  have inside : index + 1 < (lines front).length := by
    rw [length_lines]
    omega
  have present := List.getElem?_eq_getElem (Nat.lt_of_succ_lt inside)
  obtain ⟨back, cut⟩ := exists_split_of_line present
  obtain ⟨other, found, same, trimmed⟩ := getElem?_lines_append whole rest present inside
  refine ⟨_, byteLength ((lines front).take index).flatten + byteLength other,
    getElem?_lineSpans present, ?_, ?_⟩
  · have total := congrArg byteLength cut
    rw [byteLength_append, byteLength_append] at total
    dsimp only
    omega
  · rw [getElem?_lineSpans found, same, trimmed]

/-- A line that is followed by a break has the highlights that it has without all that follows. -/
theorem getElem?_perLine_append {front : Text} (whole : WholeLines front) (rest : Text)
    {index : Nat} (above : index < breakCount front) :
    (Highlight.perLine (front ++ rest))[index]? = (Highlight.perLine front)[index]? := by
  obtain ⟨span, stop, present, within, later⟩ := getElem?_lineSpans_append whole rest above
  have same : Token.shown { span with stop } = Token.shown span := rfl
  rw [getElem?_perLine, getElem?_perLine, present, later, Option.map_some, Option.map_some, same,
    filterMap_shown_append (begins_of_wholeLines whole) within]

/-- Two texts that begin with the same whole lines have the same highlights on these lines, even if
the last of them ends in a carriage return that one of the texts makes a pair of. -/
theorem perLine_above {front : Text} (whole : WholeLines front) (first second : Text) {index : Nat}
    (above : index < breakCount front) :
    ∃ highlights, (Highlight.perLine (front ++ first))[index]? = some highlights ∧
      (Highlight.perLine (front ++ second))[index]? = some highlights := by
  rw [getElem?_perLine_append whole first above, getElem?_perLine_append whole second above]
  have inside : index < (Highlight.perLine front).length := by
    rw [length_perLine, length_lines]
    omega
  exact ⟨_, List.getElem?_eq_getElem inside, List.getElem?_eq_getElem inside⟩

/-- An open string at a carriage return, which is made a pair of in one text, while the string is
closed in the other. -/
theorem perLine_above_return :
    WholeLines "ga \"a\r".toList ∧ 0 < breakCount "ga \"a\r".toList ∧
      ∃ highlights, (Highlight.perLine ("ga \"a\r".toList ++ "\nb".toList))[0]? = some highlights ∧
        (Highlight.perLine ("ga \"a\r".toList ++ "(\" x".toList))[0]? = some highlights := by
  have whole : WholeLines "ga \"a\r".toList := by
    intro c last
    have same : c = '\r' := by simpa using last.symm
    rw [same]
    rfl
  have above : 0 < breakCount "ga \"a\r".toList := by decide
  exact ⟨whole, above, perLine_above whole _ _ above⟩

end Dabara
