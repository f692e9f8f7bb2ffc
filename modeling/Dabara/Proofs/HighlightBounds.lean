import Dabara.Proofs.LineModels
import Dabara.Proofs.ScannerBounds

set_option autoImplicit false

namespace Dabara

/-- A difference that is not below zero. -/
def minus? (whole part : Nat) : Option Nat :=
  if part ≤ whole then some (whole - part) else none

/-- A line without the break that ends it, cut off as many bytes before the end as the break has. -/
def trimBreak? (line : Text) : Option Text :=
  match List.isSuffixOf? ['\r', '\n'] line with
  | some text => some text
  | none =>
      match line.getLast? with
      | some c =>
          if isLineBreak c then (minus? (byteLength line) c.utf8Size).bind (slice? line 0)
          else some line
      | none => some line

/-- Where the line behind a line begins, or where the source ends if there is none. -/
def nextStart (source : Text) (line : Nat) : Nat :=
  (lineStarts source)[line + 1]?.getD (byteLength source)

def lineSpan? (source : Text) (line : Nat) : Option LineSpan := do
  let start ← (lineStarts source)[line]?
  let whole ← slice? source start (nextStart source line)
  let text ← trimBreak? whole
  return ⟨start, start + byteLength text, nextStart source line⟩

/-- Puts a highlight, if there is one, behind those of its line. -/
def push? (rows : List (List Highlight)) (line : Nat) :
    Option Highlight → Option (List (List Highlight))
  | none => some rows
  | some highlight =>
      if line < rows.length then some (rows.modify line (· ++ [highlight])) else none

namespace Token

/-- The part of a token on a line, if neither of its ends would be below zero. -/
def clip? (token : Token) (span : LineSpan) : Option (Option Highlight) := do
  let start ← minus? (max token.start span.start) span.start
  let stop ← minus? (min token.stop span.textStop) span.start
  return if start < stop then some ⟨start, stop, token.category⟩ else none

/-- Puts the parts of a token behind the highlights of the lines from `line` on. -/
def walk? (source : Text) (token : Token) (rows : List (List Highlight)) (line : Nat) :
    Option (List (List Highlight)) := do
  let span ← lineSpan? source line
  let part ← token.clip? span
  let rows ← push? rows line part
  if _ended : token.stop ≤ span.stop ∨ (lineStarts source).length ≤ line + 1 then return rows
  else token.walk? source rows (line + 1)
termination_by (lineStarts source).length - line

/-- The numbers of the lines that the walk of a token comes to: that of the line on which the token
begins, and the next one as long as the token goes on behind a line and there is another. -/
inductive Visits (source : Text) (token : Token) : Nat → Prop
  | first : Visits source token (lineOf (lineStarts source) token.start)
  | next {line : Nat} (visited : Visits source token line)
      (goesOn : nextStart source line < token.stop)
      (more : line + 1 < (lineStarts source).length) : Visits source token (line + 1)

def parts (source : Text) (token : Token) : List (Nat × Highlight) :=
  if token.category.isPlain then []
  else token.pieces (lineOf (lineStarts source) token.start)
    ((lineSpans source).drop (lineOf (lineStarts source) token.start))

/-- Puts the parts of a token, unless it is plain, behind the highlights of the lines from the one
on which it begins. -/
def add? (source : Text) (rows : List (List Highlight)) (token : Token) :
    Option (List (List Highlight)) :=
  if token.category.isPlain then some rows
  else (minus? (linesBegun (lineStarts source) token.start) 1).bind (token.walk? source rows)

end Token

def Highlight.perLine? (source : Text) : Option (List (List Highlight)) := do
  let tokens ← scan? source
  tokens.foldlM (Token.add? source) (List.replicate (lineStarts source).length [])

theorem minus?_of_le {whole part : Nat} (fits : part ≤ whole) :
    minus? whole part = some (whole - part) :=
  if_pos fits

/-- A break is found whole at the end of its line, so that cutting it off cannot fail. -/
theorem trimBreak?_eq (line : Text) : trimBreak? line = some (trimBreak line) := by
  unfold trimBreak? trimBreak
  cases List.isSuffixOf? ['\r', '\n'] line with
  | some text => rfl
  | none =>
      rcases List.eq_nil_or_concat line with rfl | ⟨front, c, rfl⟩
      · rfl
      · have fits : byteLength (front ++ [c]) - c.utf8Size = byteLength front := by simp
        have cut := slice?_append [] front [c]
        rw [List.nil_append, byteLength_nil] at cut
        dsimp only
        rw [List.concat_eq_append, List.getLast?_concat]
        dsimp only
        split
        · rw [minus?_of_le (by simp), Option.bind_some, fits, cut, List.dropLast_concat]
        · rfl

/-- The extent of a line is found for exactly the numbers of lines. -/
theorem lineSpan?_eq (source : Text) (line : Nat) :
    lineSpan? source line = (lineSpans source)[line]? := by
  unfold lineSpan?
  cases present : (lines source)[line]? with
  | none =>
      rw [getElem?_lineStarts, lineSpans_eq, getElem?_extents, present]
      rfl
  | some text =>
      have whole : slice? source (byteLength ((lines source).take line).flatten)
          (nextStart source line) = some text := by
        rw [nextStart, getD_lineStarts_succ present, ← byteLength_append]
        nth_rewrite 1 [← append_line_append present]
        exact slice?_append _ text _
      rw [getElem?_lineStarts, present, getElem?_lineSpans present, Option.map_some,
        ← getD_lineStarts_succ present]
      simp only [Option.bind_eq_bind, Option.bind_some, whole, trimBreak?_eq]
      rfl

theorem Token.clip?_eq {token : Token} {span : LineSpan} (reached : span.start ≤ token.stop)
    (ordered : span.start ≤ span.textStop) : token.clip? span = some (token.clip span) := by
  unfold clip? clip
  rw [minus?_of_le (Nat.le_max_right _ _), minus?_of_le (Nat.le_min.mpr ⟨reached, ordered⟩)]
  rfl

/-- Rows with each of some parts put behind the row of its line. -/
def addAll (rows : List (List Highlight)) (parts : List (Nat × Highlight)) :
    List (List Highlight) :=
  rows.mapIdx fun line row => row ++ onLine line parts

@[simp] theorem length_addAll (rows : List (List Highlight)) (parts : List (Nat × Highlight)) :
    (addAll rows parts).length = rows.length := by
  simp [addAll]

theorem addAll_nil (rows : List (List Highlight)) : addAll rows [] = rows := by
  apply List.ext_getElem
  · simp
  · intro line _ _
    simp [addAll]

theorem addAll_append (rows : List (List Highlight)) (first second : List (Nat × Highlight)) :
    addAll rows (first ++ second) = addAll (addAll rows first) second := by
  simp [addAll, List.mapIdx_mapIdx, Function.comp_def]

theorem push?_eq {rows : List (List Highlight)} {line : Nat} (inside : line < rows.length)
    (part : Option Highlight) :
    push? rows line part = some (addAll rows (part.map (line, ·)).toList) := by
  cases part with
  | none => exact congrArg some (addAll_nil rows).symm
  | some highlight =>
      rw [push?, if_pos inside, Option.some.injEq]
      apply List.ext_getElem
      · simp
      · intro index _ _
        rw [List.getElem_modify]
        simp only [addAll, List.getElem_mapIdx]
        rw [onLine_part]
        split
        · rfl
        · rw [List.append_nil]

/-- The parts of all tokens put behind empty rows are the highlights of the lines. -/
theorem addAll_replicate (source : Text) :
    addAll (List.replicate (lineStarts source).length []) (Highlight.pieces source) =
      Highlight.perLine source := by
  apply List.ext_getElem
  · rw [length_addAll, List.length_replicate, length_lineStarts, length_perLine]
  · intro line _ _
    simp [addAll, Highlight.perLine, onLine]

/-- How the three numbers of a line stand to its source: the line begins where the list of starts
says and stops where the next one begins, its text is all but the break, and the source can be cut
at each of them. -/
structure LineSpan.Fits (source : Text) (line : Nat) (span : LineSpan) : Prop where
  start : (lineStarts source)[line]? = some span.start
  stop : nextStart source line = span.stop
  text : span.textStop =
    span.start + byteLength (trimBreak (sliceBytes source span.start span.stop))
  ordered : span.start ≤ span.textStop ∧ span.textStop ≤ span.stop
  cuts : IsBoundary source span.start ∧ IsBoundary source span.textStop ∧
    IsBoundary source span.stop

theorem fits_of_present {source : Text} {line : Nat} {span : LineSpan}
    (present : (lineSpans source)[line]? = some span) : span.Fits source line := by
  have inside : line < (lines source).length := by
    rw [← length_extents 0, ← lineSpans_eq]
    exact (List.getElem?_eq_some_iff.mp present).1
  have found := List.getElem?_eq_getElem inside
  have agrees := lineAgrees found present
  have shorter := byteLength_trimBreak_le (lines source)[line]
  have whole := append_line_append found
  obtain ⟨back, cut⟩ := exists_split_of_line found
  rw [getElem?_lineSpans found, Option.some.injEq] at present
  refine ⟨agrees.start, agrees.stop, ?_, ?_, ?_⟩
  · rw [agrees.whole, ← present]
  · rw [← present]
    dsimp only
    omega
  · rw [← present]
    dsimp only
    rw [← byteLength_append, ← byteLength_append]
    refine ⟨?_, ?_, ?_⟩
    · rw [List.append_assoc] at cut
      exact ⟨_, _, cut.symm, rfl⟩
    · exact ⟨_, _, cut.symm, rfl⟩
    · exact ⟨_, _, whole, rfl⟩

section Walk

variable {source : Text} {token : Token} {line : Nat}

theorem linesBegun_pos (source : Text) (offset : Nat) :
    1 ≤ linesBegun (lineStarts source) offset := by
  simp [linesBegun, lineStarts]

theorem lt_stop_of_mem_scan (scanned : token ∈ scan source) : token.start < token.stop := by
  obtain ⟨before, after, split, _⟩ := exists_split_of_mem_locate scanned
  have nonempty : token.text ≠ [] := text_ne_nil_of_mem_fragments (by rw [split]; simp)
  exact Nat.lt_add_of_pos_right (byteLength_pos nonempty)

theorem exists_lineSpan (inside : line < (lineStarts source).length) :
    ∃ span, (lineSpans source)[line]? = some span := by
  rw [lineStarts_eq_map, List.length_map] at inside
  exact ⟨_, List.getElem?_eq_getElem inside⟩

/-- The walk of a token comes only to lines that are there and begin before the token stops. -/
theorem Token.Visits.reaches (scanned : token ∈ scan source) (visited : token.Visits source line) :
    ∃ span, (lineSpans source)[line]? = some span ∧ span.start < token.stop := by
  cases visited with
  | first =>
      have begun := linesBegun_pos source token.start
      have bound := linesBegun_le (lineStarts source) token.start
      have before : lineOf (lineStarts source) token.start <
          linesBegun (lineStarts source) token.start := by
        unfold lineOf
        omega
      obtain ⟨span, present⟩ := exists_lineSpan (Nat.lt_of_lt_of_le before bound)
      have start := le_of_lt_linesBegun before (fits_of_present present).start
      exact ⟨span, present, Nat.lt_of_le_of_lt start (lt_stop_of_mem_scan scanned)⟩
  | @next earlier _ goesOn more =>
      obtain ⟨span, present⟩ := exists_lineSpan more
      refine ⟨span, present, ?_⟩
      rwa [nextStart, (fits_of_present present).start, Option.getD_some] at goesOn

/-- One step of the walk: the part on a line is put behind the highlights there, and the walk goes
on unless the token stops with the line or there is no other. -/
theorem Token.walk?_step {span : LineSpan} (present : (lineSpans source)[line]? = some span)
    (reached : span.start < token.stop) {rows : List (List Highlight)} (room : line < rows.length) :
    token.walk? source rows line =
      if token.stop ≤ span.stop ∨ (lineStarts source).length ≤ line + 1 then
        some (addAll rows ((token.clip span).map (line, ·)).toList)
      else
        token.walk? source (addAll rows ((token.clip span).map (line, ·)).toList) (line + 1) := by
  have ordered := (fits_of_present present).ordered.1
  rw [walk?, lineSpan?_eq, present]
  simp only [Option.bind_eq_bind, Option.bind_some, clip?_eq (Nat.le_of_lt reached) ordered,
    push?_eq room]
  rfl

theorem Token.pieces_drop {span : LineSpan} (present : (lineSpans source)[line]? = some span) :
    token.pieces line ((lineSpans source).drop line) =
      ((token.clip span).map (line, ·)).toList ++
        if token.stop ≤ span.stop ∨ (lineStarts source).length ≤ line + 1 then []
        else token.pieces (line + 1) ((lineSpans source).drop (line + 1)) := by
  obtain ⟨inside, same⟩ := List.getElem?_eq_some_iff.mp present
  rw [List.drop_eq_getElem_cons inside, same, pieces, lineStarts_eq_map, List.length_map]
  by_cases ended : token.stop ≤ span.stop
  · rw [if_pos ended, if_pos (Or.inl ended)]
  · by_cases last : (lineSpans source).length ≤ line + 1
    · rw [if_neg ended, if_pos (Or.inr last), List.drop_of_length_le last, pieces]
    · rw [if_neg ended, if_neg (by omega)]

/-- From every line that it comes to, the walk of a token goes through without a failure and puts
the token's parts where they belong. -/
theorem Token.Visits.walk?_eq (scanned : token ∈ scan source) (visited : token.Visits source line)
    {rows : List (List Highlight)} (full : rows.length = (lineStarts source).length) :
    token.walk? source rows line =
      some (addAll rows (token.pieces line ((lineSpans source).drop line))) := by
  -- Each step leaves one line less; where the walk goes on, it comes to the next line.
  induction remaining : (lineStarts source).length - line using Nat.strongRecOn
      generalizing line rows with
  | ind left ih =>
    obtain ⟨span, present, reached⟩ := visited.reaches scanned
    have fits := fits_of_present present
    have room : line < rows.length := by
      rw [full]
      exact (List.getElem?_eq_some_iff.mp fits.start).1
    rw [walk?_step present reached room, pieces_drop present]
    by_cases ended : token.stop ≤ span.stop ∨ (lineStarts source).length ≤ line + 1
    · rw [if_pos ended, if_pos ended, List.append_nil]
    · rw [if_neg ended, if_neg ended, addAll_append]
      have next : token.Visits source (line + 1) :=
        visited.next (by rw [fits.stop]; omega) (by omega)
      exact ih ((lineStarts source).length - (line + 1)) (by omega) next (by simpa using full) rfl

theorem Token.add?_eq (scanned : token ∈ scan source) {rows : List (List Highlight)}
    (full : rows.length = (lineStarts source).length) :
    token.add? source rows = some (addAll rows (token.parts source)) := by
  unfold add? parts
  split
  · rw [addAll_nil]
  · rw [minus?_of_le (linesBegun_pos source token.start), Option.bind_some]
    exact Visits.first.walk?_eq scanned full

theorem foldlM_add?_eq {tokens : List Token} (scanned : ∀ token ∈ tokens, token ∈ scan source)
    {rows : List (List Highlight)} (full : rows.length = (lineStarts source).length) :
    tokens.foldlM (Token.add? source) rows =
      some (addAll rows (tokens.flatMap (Token.parts source))) := by
  induction tokens generalizing rows with
  | nil => exact congrArg some (addAll_nil rows).symm
  | cons token rest ih =>
      obtain ⟨first, later⟩ := List.forall_mem_cons.mp scanned
      rw [List.foldlM_cons, Token.add?_eq first full, List.flatMap_cons, addAll_append]
      exact ih later (by simpa using full)

theorem Highlight.perLine?_eq (source : Text) : perLine? source = some (perLine source) := by
  have whole : (scan source).flatMap (Token.parts source) = pieces source := rfl
  rw [perLine?, scan?_eq, Option.bind_eq_bind, Option.bind_some,
    foldlM_add?_eq (fun _ member => member) (List.length_replicate ..), whole, addAll_replicate]

/-- The last line stops with the source, so no token goes on behind it. -/
theorem Token.stop_le_nextStart (scanned : token ∈ scan source)
    (last : (lineStarts source).length ≤ line + 1) : token.stop ≤ nextStart source line := by
  rw [nextStart, List.getElem?_eq_none last, Option.getD_none]
  exact (isBoundary_of_mem_scan scanned).2.le_byteLength

/-- From every line that it comes to, the walk of a token comes to one line after the other until
one stops no earlier than the token. -/
theorem Token.Visits.exists_last (scanned : token ∈ scan source)
    (visited : token.Visits source line) :
    ∃ last, line ≤ last ∧ token.stop ≤ nextStart source last ∧
      ∀ other, line ≤ other → other ≤ last → token.Visits source other := by
  induction remaining : (lineStarts source).length - line using Nat.strongRecOn
      generalizing line with
  | ind left ih =>
    by_cases ended : token.stop ≤ nextStart source line
    · refine ⟨line, Nat.le_refl line, ended, ?_⟩
      intro other lower upper
      rwa [Nat.le_antisymm upper lower]
    · have more : line + 1 < (lineStarts source).length := by
        by_contra none
        exact ended (stop_le_nextStart scanned (by omega))
      have next : token.Visits source (line + 1) := visited.next (by omega) more
      obtain ⟨last, behind, stops, between⟩ :=
        ih ((lineStarts source).length - (line + 1)) (by omega) next rfl
      refine ⟨last, by omega, stops, ?_⟩
      intro other lower upper
      rcases Nat.eq_or_lt_of_le lower with rfl | later
      · exact visited
      · exact between other later upper

/-- The walk of a token comes to the lines from the one on which the token begins to the first that
stops no earlier than the token, and ends there. -/
theorem Token.exists_visits_iff (scanned : token ∈ scan source) :
    ∃ last, token.stop ≤ nextStart source last ∧ ∀ line, token.Visits source line ↔
      lineOf (lineStarts source) token.start ≤ line ∧ line ≤ last := by
  obtain ⟨last, behind, stops, between⟩ := Visits.first.exists_last scanned
  refine ⟨last, stops, ?_⟩
  intro line
  refine ⟨?_, fun range => between line range.1 range.2⟩
  intro visited
  induction visited with
  | first => exact ⟨Nat.le_refl _, behind⟩
  | @next line _ goesOn _ ih =>
      have before : line ≠ last := by
        rintro rfl
        omega
      omega

end Walk

theorem lt_of_mem_breakStops {offset stop : Nat} {text : Text}
    (member : stop ∈ breakStops offset text) : offset < stop := by
  induction text generalizing offset with
  | nil => cases member
  | cons c rest ih =>
      have positive := c.utf8Size_pos
      have later : stop ∈ breakStops (offset + c.utf8Size) rest → offset < stop := by
        intro behind
        have past := ih behind
        omega
      simp only [breakStops] at member
      split at member
      · exact later member
      · split at member
        · rcases List.mem_cons.mp member with rfl | behind
          · omega
          · exact later behind
        · exact later member

theorem pairwise_breakStops (offset : Nat) (text : Text) :
    (breakStops offset text).Pairwise (· < ·) := by
  induction text generalizing offset with
  | nil => exact .nil
  | cons c rest ih =>
      simp only [breakStops]
      split
      · exact ih _
      · split
        · exact .cons (fun _ member => lt_of_mem_breakStops member) (ih _)
        · exact ih _

theorem pairwise_lineStarts (source : Text) : (lineStarts source).Pairwise (· < ·) :=
  .cons (fun _ member => lt_of_mem_breakStops member) (pairwise_breakStops 0 source)

theorem linesBegun_cons (start : Nat) (starts : List Nat) (offset : Nat) :
    linesBegun (start :: starts) offset =
      if start ≤ offset then linesBegun starts offset + 1 else 0 := by
  by_cases early : start ≤ offset
  · simp [linesBegun, early]
  · simp [linesBegun, early]

/-- Of starts in order, those at or before an offset come first, and they are as many as have begun
there. -/
theorem le_iff_lt_linesBegun {starts : List Nat} (increasing : starts.Pairwise (· < ·))
    {offset index start : Nat} (present : starts[index]? = some start) :
    start ≤ offset ↔ index < linesBegun starts offset := by
  refine ⟨?_, fun begun => le_of_lt_linesBegun begun present⟩
  intro early
  induction increasing generalizing index with
  | nil => simp at present
  | @cons first rest before _ ih =>
      rw [linesBegun_cons]
      cases index with
      | zero =>
          rw [List.getElem?_cons_zero, Option.some.injEq] at present
          rw [present, if_pos early]
          exact Nat.succ_pos _
      | succ index =>
          rw [List.getElem?_cons_succ] at present
          have ordered := before start (List.mem_of_getElem? present)
          rw [if_pos (by omega)]
          exact Nat.succ_lt_succ (ih present)

theorem isBoundary_of_mem_lineStarts {source : Text} {start : Nat}
    (member : start ∈ lineStarts source) : IsBoundary source start := by
  obtain ⟨line, present⟩ := List.getElem?_of_mem member
  obtain ⟨span, found⟩ := exists_lineSpan (List.getElem?_eq_some_iff.mp present).1
  have fits := fits_of_present found
  obtain rfl : start = span.start := Option.some.inj (present.symm.trans fits.start)
  exact fits.cuts.1

namespace Highlight

/-- What it means that highlighting a source keeps to its bounds: the lines begin at boundaries of
the source, in order from its first byte on; the lines that have begun at a token are those that
begin at or before it, and at least one; on each line that the walk of a token comes to, the numbers
of the line fit the source, the token stops behind its start and its part there can be counted; the
walk ends with the line that stops no earlier than the token; and all checks together let the
highlights through. -/
structure InBounds (source : Text) : Prop where
  first : (lineStarts source).head? = some 0
  increasing : (lineStarts source).Pairwise (· < ·)
  boundary : ∀ start ∈ lineStarts source, start ≤ byteLength source ∧ IsBoundary source start
  begun : ∀ token ∈ scan source, 1 ≤ linesBegun (lineStarts source) token.start ∧
    ∀ index start, (lineStarts source)[index]? = some start →
      (start ≤ token.start ↔ index < linesBegun (lineStarts source) token.start)
  visits : ∀ token ∈ scan source, ∀ line, token.Visits source line →
    ∃ span : LineSpan, span.Fits source line ∧ span.start < token.stop ∧
      token.clip? span = some (token.clip span)
  ends : ∀ token ∈ scan source, ∃ last, token.stop ≤ nextStart source last ∧
    ∀ line, token.Visits source line ↔
      lineOf (lineStarts source) token.start ≤ line ∧ line ≤ last
  result : perLine? source = some (perLine source)

/-- Highlighting any source keeps to its bounds. -/
theorem perLine_in_bounds (source : Text) : InBounds source where
  first := rfl
  increasing := pairwise_lineStarts source
  boundary := by
    intro start member
    have boundary := isBoundary_of_mem_lineStarts member
    exact ⟨boundary.le_byteLength, boundary⟩
  begun := by
    intro token _
    refine ⟨linesBegun_pos source token.start, ?_⟩
    intro index start present
    exact le_iff_lt_linesBegun (pairwise_lineStarts source) present
  visits := by
    intro token scanned line visited
    obtain ⟨span, present, reached⟩ := visited.reaches scanned
    have fits := fits_of_present present
    exact ⟨span, fits, reached, Token.clip?_eq (Nat.le_of_lt reached) fits.ordered.1⟩
  ends := fun _ scanned => Token.exists_visits_iff scanned
  result := perLine?_eq source

/-- A string over three lines, the second of which is nothing but a line separator. -/
def longString : Token :=
  ⟨⟨.string, "\"ƙ\r\n\u2028\"".toList⟩, 0⟩

/-- The walk of the string comes to the second line, on which nothing is shown. -/
theorem perLine_in_bounds_string :
    longString ∈ scan longString.text ∧ longString.Visits longString.text 1 ∧
      (∃ span : LineSpan, span.Fits longString.text 1 ∧ span.start < longString.stop ∧
        longString.clip? span = some (longString.clip span)) ∧
      perLine? longString.text = some [[⟨0, 3, .string⟩], [], [⟨0, 1, .string⟩]] := by
  have scanned : longString ∈ scan longString.text := by decide +kernel
  have visited : longString.Visits longString.text 1 :=
    Token.Visits.next .first (by decide +kernel) (by decide +kernel)
  have bounds := perLine_in_bounds longString.text
  exact ⟨scanned, visited, bounds.visits longString scanned 1 visited,
    bounds.result.trans (by decide +kernel)⟩

end Highlight

end Dabara
