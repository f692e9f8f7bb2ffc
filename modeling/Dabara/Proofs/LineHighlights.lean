import Dabara.Highlight
import Dabara.Proofs.Coverage
import Dabara.Proofs.Lines
import Mathlib.Data.List.Basic

set_option autoImplicit false

namespace Dabara

/-- Extents of lines that follow each other from an offset on. -/
def Adjoining (offset : Nat) : List LineSpan → Prop
  | [] => True
  | span :: rest => span.start = offset ∧ span.start ≤ span.textStop ∧ span.textStop ≤ span.stop ∧
      Adjoining span.stop rest

theorem byteLength_trimBreak_le (line : Text) : byteLength (trimBreak line) ≤ byteLength line := by
  obtain ⟨ending, whole⟩ := trimBreak_prefix line
  have total := congrArg byteLength whole
  rw [byteLength_append] at total
  omega

theorem adjoining_extents (offset : Nat) (parts : List Text) :
    Adjoining offset (extents offset parts) := by
  induction parts generalizing offset with
  | nil => trivial
  | cons line rest ih =>
      have shorter := byteLength_trimBreak_le line
      refine ⟨rfl, ?_, ?_, ih _⟩
      · exact Nat.le_add_right offset _
      · exact Nat.add_le_add_left shorter offset

theorem Adjoining.drop {offset : Nat} {spans : List LineSpan} (adjoining : Adjoining offset spans)
    (count : Nat) : ∃ next, Adjoining next (spans.drop count) := by
  induction count generalizing offset spans with
  | zero => exact ⟨offset, adjoining⟩
  | succ count ih =>
      cases spans with
      | nil => exact ⟨0, trivial⟩
      | cons span rest => exact ih adjoining.2.2.2

theorem Adjoining.le_start {offset : Nat} {spans : List LineSpan}
    (adjoining : Adjoining offset spans) {index : Nat} {span : LineSpan}
    (present : spans[index]? = some span) : offset ≤ span.start := by
  induction spans generalizing offset index with
  | nil => simp at present
  | cons first rest ih =>
      obtain ⟨start, text, behind, later⟩ := adjoining
      cases index with
      | zero =>
          simp only [List.getElem?_cons_zero, Option.some.injEq] at present
          rw [← present]
          exact Nat.le_of_eq start.symm
      | succ index =>
          rw [List.getElem?_cons_succ] at present
          have after := ih later present
          omega

/-- A line's text stops no later than its break, where the next line begins. -/
theorem Adjoining.textStop_le {offset : Nat} {spans : List LineSpan}
    (adjoining : Adjoining offset spans) {index : Nat} {span next : LineSpan}
    (present : spans[index]? = some span) (behind : spans[index + 1]? = some next) :
    span.textStop ≤ next.start := by
  induction spans generalizing offset index with
  | nil => simp at present
  | cons first rest ih =>
      obtain ⟨_, _, text, later⟩ := adjoining
      rw [List.getElem?_cons_succ] at behind
      cases index with
      | zero =>
          simp only [List.getElem?_cons_zero, Option.some.injEq] at present
          rw [← present]
          exact Nat.le_trans text (later.le_start behind)
      | succ index =>
          rw [List.getElem?_cons_succ] at present
          exact ih later present behind

namespace Token

theorem clip_eq_some_iff (token : Token) (span : LineSpan) (highlight : Highlight) :
    token.clip span = some highlight ↔
      highlight.start = max token.start span.start - span.start ∧
      highlight.stop = min token.stop span.textStop - span.start ∧
      highlight.category = token.category ∧ highlight.start < highlight.stop := by
  obtain ⟨start, stop, category⟩ := highlight
  unfold clip
  dsimp only
  split
  · next shown =>
      simp only [Option.some.injEq, Highlight.mk.injEq]
      constructor
      · intro parts
        obtain ⟨rfl, rfl, rfl⟩ := parts
        exact ⟨rfl, rfl, rfl, shown⟩
      · intro parts
        obtain ⟨rfl, rfl, rfl, _⟩ := parts
        exact ⟨rfl, rfl, rfl⟩
  · next hidden =>
      constructor
      · intro impossible
        cases impossible
      · intro parts
        obtain ⟨rfl, rfl, _, shown⟩ := parts
        exact absurd shown hidden

theorem clip_eq_none_of_before {token : Token} {span : LineSpan}
    (before : token.stop ≤ span.start) : token.clip span = none := by
  unfold clip
  dsimp only
  rw [if_neg (by omega)]

theorem clip_eq_none_of_behind {token : Token} {span : LineSpan}
    (behind : span.textStop ≤ token.start) : token.clip span = none := by
  unfold clip
  dsimp only
  rw [if_neg (by omega)]

end Token

def onLine (line : Nat) (parts : List (Nat × Highlight)) : List Highlight :=
  parts.filterMap fun piece => if piece.1 = line then some piece.2 else none

@[simp] theorem onLine_nil (line : Nat) : onLine line [] = [] := rfl

@[simp] theorem onLine_append (line : Nat) (first second : List (Nat × Highlight)) :
    onLine line (first ++ second) = onLine line first ++ onLine line second := by
  simp [onLine]

theorem onLine_part (line other : Nat) (part : Option Highlight) :
    onLine line (part.map (other, ·)).toList = if other = line then part.toList else [] := by
  cases part with
  | none => simp
  | some highlight =>
      by_cases same : other = line
      · simp [onLine, same]
      · simp [onLine, same]

theorem onLine_pieces_of_lt (token : Token) {earlier line : Nat} (before : earlier < line)
    (spans : List LineSpan) : onLine earlier (token.pieces line spans) = [] := by
  induction spans generalizing line with
  | nil => rfl
  | cons span rest ih =>
      rw [Token.pieces, onLine_append, onLine_part, if_neg (by omega), List.nil_append]
      split
      · rfl
      · exact ih (by omega)

/-- The walk of a token gives each line from its first on what is cut out for that line. -/
theorem onLine_pieces {token : Token} {offset line index : Nat} {spans : List LineSpan}
    (adjoining : Adjoining offset spans) :
    onLine (line + index) (token.pieces line spans) = (spans[index]?.bind token.clip).toList := by
  induction spans generalizing offset line index with
  | nil => simp [Token.pieces]
  | cons span rest ih =>
      obtain ⟨_, _, _, later⟩ := adjoining
      rw [Token.pieces, onLine_append, onLine_part]
      cases index with
      | zero =>
          have others : onLine line
              (if token.stop ≤ span.stop then [] else token.pieces (line + 1) rest) = [] := by
            split
            · rfl
            · exact onLine_pieces_of_lt token (Nat.lt_succ_self line) rest
          simp [others]
      | succ index =>
          rw [if_neg (by omega), List.nil_append, List.getElem?_cons_succ]
          split
          · next ended =>
              cases present : rest[index]? with
              | none => simp
              | some next =>
                  have after := later.le_start present
                  simp [Token.clip_eq_none_of_before (Nat.le_trans ended after)]
          · rw [show line + (index + 1) = line + 1 + index by omega]
            exact ih later

theorem le_of_lt_linesBegun {starts : List Nat} {offset index start : Nat}
    (begun : index < linesBegun starts offset) (present : starts[index]? = some start) :
    start ≤ offset := by
  induction starts generalizing index with
  | nil => simp at present
  | cons first rest ih =>
      rw [linesBegun, List.takeWhile_cons] at begun
      split at begun
      · next early =>
          cases index with
          | zero =>
              simp only [List.getElem?_cons_zero, Option.some.injEq] at present
              rw [← present]
              exact of_decide_eq_true early
          | succ index =>
              rw [List.getElem?_cons_succ] at present
              rw [List.length_cons] at begun
              exact ih (Nat.lt_of_succ_lt_succ begun) present
      · exact absurd begun (Nat.not_lt_zero index)

theorem linesBegun_le (starts : List Nat) (offset : Nat) :
    linesBegun starts offset ≤ starts.length :=
  (List.takeWhile_prefix _).length_le

theorem adjoining_lineSpans (source : Text) : Adjoining 0 (lineSpans source) := by
  rw [lineSpans_eq]
  exact adjoining_extents 0 (lines source)

theorem lineStarts_eq_map (source : Text) :
    lineStarts source = (lineSpans source).map LineSpan.start := by
  rw [lineStarts_eq, lineSpans_eq]

/-- A line before the one on which a token begins stops before the token. -/
theorem clip_eq_none_of_lt_lineOf {source : Text} {token : Token} {index : Nat} {span : LineSpan}
    (present : (lineSpans source)[index]? = some span)
    (earlier : index < lineOf (lineStarts source) token.start) : token.clip span = none := by
  have begun : index + 1 < linesBegun (lineStarts source) token.start := by
    unfold lineOf at earlier
    omega
  have inside : index + 1 < (lineSpans source).length := by
    have bound := linesBegun_le (lineStarts source) token.start
    rw [lineStarts_eq_map, List.length_map] at bound
    rw [lineStarts_eq_map] at begun
    omega
  have next := List.getElem?_eq_getElem inside
  have before : (lineSpans source)[index + 1].start ≤ token.start :=
    le_of_lt_linesBegun begun (by rw [lineStarts_eq_map, List.getElem?_map, next]; rfl)
  have text := (adjoining_lineSpans source).textStop_le present next
  exact Token.clip_eq_none_of_behind (Nat.le_trans text before)

theorem onLine_walk {source : Text} {index : Nat} {span : LineSpan}
    (present : (lineSpans source)[index]? = some span) (token : Token) :
    onLine index (token.pieces (lineOf (lineStarts source) token.start)
      ((lineSpans source).drop (lineOf (lineStarts source) token.start))) =
        (token.clip span).toList := by
  by_cases earlier : index < lineOf (lineStarts source) token.start
  · rw [onLine_pieces_of_lt token earlier, clip_eq_none_of_lt_lineOf present earlier]
    rfl
  · obtain ⟨count, rfl⟩ := Nat.exists_eq_add_of_le (Nat.le_of_not_lt earlier)
    obtain ⟨next, adjoining⟩ := (adjoining_lineSpans source).drop
      (lineOf (lineStarts source) token.start)
    rw [onLine_pieces adjoining, List.getElem?_drop, present, Option.bind_some]

/-- What a token shows on a line: its part of the text, unless the token is plain. -/
def Token.shown (span : LineSpan) (token : Token) : Option Highlight :=
  if token.category.isPlain then none else token.clip span

/-- The highlights of a line are what the tokens show on it, in the order of the tokens. -/
theorem getElem?_perLine (source : Text) (index : Nat) :
    (Highlight.perLine source)[index]? = (lineSpans source)[index]?.map fun span =>
      (scan source).filterMap (Token.shown span) := by
  cases present : (lineSpans source)[index]? with
  | none =>
      have outside := List.getElem?_eq_none_iff.mp present
      simp [Highlight.perLine, outside]
  | some span =>
      have inside := (List.getElem?_eq_some_iff.mp present).1
      have select : (Highlight.perLine source)[index]? =
          some (onLine index (Highlight.pieces source)) := by
        simp [Highlight.perLine, inside, onLine]
      have each : ∀ token : Token, onLine index
          (if token.category.isPlain then []
            else token.pieces (lineOf (lineStarts source) token.start)
              ((lineSpans source).drop (lineOf (lineStarts source) token.start))) =
          (token.shown span).toList := by
        intro token
        unfold Token.shown
        split
        · rfl
        · exact onLine_walk present token
      rw [select, Highlight.pieces, onLine, List.filterMap_flatMap, Option.map_some,
        List.filterMap_eq_flatMap_toList]
      exact congrArg (fun shown => some ((scan source).flatMap shown)) (funext each)

def Highlight.covers (offset : Nat) (highlight : Highlight) : Bool :=
  highlight.start ≤ offset && offset < highlight.stop

theorem Highlight.covers_iff (offset : Nat) (highlight : Highlight) :
    highlight.covers offset = true ↔ highlight.start ≤ offset ∧ offset < highlight.stop := by
  simp [Highlight.covers]

namespace Token

/-- On the text of a line, the part of a token covers what the token covers. -/
theorem covers_of_clip {token : Token} {span : LineSpan} {highlight : Highlight}
    (clipped : token.clip span = some highlight) {offset : Nat}
    (inside : span.start + offset < span.textStop) :
    highlight.covers offset = token.covers (span.start + offset) := by
  obtain ⟨start, stop, _, _⟩ := (token.clip_eq_some_iff span highlight).mp clipped
  rw [Bool.eq_iff_iff, Highlight.covers_iff, Token.covers_iff]
  omega

theorem exists_clip_of_covers {token : Token} {span : LineSpan} {offset : Nat}
    (inside : span.start + offset < span.textStop)
    (covered : token.covers (span.start + offset) = true) :
    ∃ highlight, token.clip span = some highlight ∧ highlight.category = token.category := by
  obtain ⟨lower, upper⟩ := (token.covers_iff _).mp covered
  refine ⟨⟨max token.start span.start - span.start, min token.stop span.textStop - span.start,
    token.category⟩, ?_, rfl⟩
  rw [clip_eq_some_iff]
  refine ⟨rfl, rfl, rfl, ?_⟩
  dsimp only
  omega

theorem clip_of_shown {token : Token} {span : LineSpan} {highlight : Highlight}
    (shown : token.shown span = some highlight) : token.clip span = some highlight := by
  unfold Token.shown at shown
  split at shown
  · cases shown
  · exact shown

theorem filter_shown {span : LineSpan} {offset : Nat}
    (inside : span.start + offset < span.textStop) (token : Token) :
    (token.shown span).filter (·.covers offset) =
      if token.covers (span.start + offset) = true then token.shown span else none := by
  cases shown : token.shown span with
  | none => simp
  | some highlight => simp [Option.filter, covers_of_clip (clip_of_shown shown) inside]

end Token

/-- The highlights over a byte are what the tokens over that byte show. -/
theorem filter_covers_filterMap {span : LineSpan} {offset : Nat}
    (inside : span.start + offset < span.textStop) (tokens : List Token) :
    (tokens.filterMap (Token.shown span)).filter (·.covers offset) =
      (tokens.filter (·.covers (span.start + offset))).filterMap (Token.shown span) := by
  rw [List.filter_filterMap, List.filterMap_filter]
  congr 1
  exact funext (Token.filter_shown inside)

theorem pairwise_shown {start stop : Nat} {tokens : List Token}
    (path : Contiguous start tokens stop) (span : LineSpan) :
    (tokens.filterMap (Token.shown span)).Pairwise fun first second =>
      first.stop ≤ second.start := by
  refine path.pairwise.filterMap (Token.shown span) ?_
  intro first second apart before firstShown after secondShown
  have firstClip := (first.clip_eq_some_iff span before).mp (Token.clip_of_shown firstShown)
  have secondClip := (second.clip_eq_some_iff span after).mp (Token.clip_of_shown secondShown)
  omega

/-- A part of a token on a line is cut at boundaries of the line's text. -/
theorem isBoundary_of_clip {front text back : Text} {token : Token} {stop : Nat}
    {highlight : Highlight} (start : IsBoundary (front ++ text ++ back) token.start)
    (ends : IsBoundary (front ++ text ++ back) token.stop)
    (clipped : token.clip ⟨byteLength front, byteLength front + byteLength text, stop⟩ =
      some highlight) :
    IsBoundary text highlight.start ∧ IsBoundary text highlight.stop := by
  obtain ⟨first, last, _, shown⟩ := (token.clip_eq_some_iff _ highlight).mp clipped
  dsimp only at first last
  constructor
  · by_cases inside : byteLength front ≤ token.start
    · rw [show highlight.start = token.start - byteLength front by omega]
      exact start.within inside (by omega)
    · rw [show highlight.start = byteLength [] by rw [byteLength_nil]; omega]
      exact isBoundary_front [] text
  · by_cases inside : token.stop ≤ byteLength front + byteLength text
    · rw [show highlight.stop = token.stop - byteLength front by omega]
      exact ends.within (by omega) inside
    · rw [show highlight.stop = byteLength text by omega]
      simpa using isBoundary_front text []

/-- What it means that highlights paint a line's text, which begins at byte `start` of the source:
each byte of the text belongs to one token and is painted in the token's category, or not at all if
that is plain; the highlights stand apart and in order, within the text and on its boundaries. -/
structure Paints (tokens : List Token) (start : Nat) (text : Text)
    (highlights : List Highlight) : Prop where
  painted : ∀ offset < byteLength text, ∃ token,
    tokens.filter (·.covers (start + offset)) = [token] ∧
    (token.category ≠ .plain → ∃ highlight, highlights.filter (·.covers offset) = [highlight] ∧
      highlight.category = token.category) ∧
    (token.category = .plain → highlights.filter (·.covers offset) = [])
  nonempty : ∀ highlight ∈ highlights, highlight.start < highlight.stop
  ordered : highlights.Pairwise fun first second => first.stop ≤ second.start
  inside : ∀ highlight ∈ highlights, highlight.stop ≤ byteLength text
  boundary : ∀ highlight ∈ highlights,
    IsBoundary text highlight.start ∧ IsBoundary text highlight.stop

theorem painted_of_shown {source front text back : Text} {stop : Nat}
    (whole : source = front ++ text ++ back) {offset : Nat} (inside : offset < byteLength text) :
    ∃ token, (scan source).filter (·.covers (byteLength front + offset)) = [token] ∧
      ((scan source).filterMap (Token.shown
        ⟨byteLength front, byteLength front + byteLength text, stop⟩)).filter (·.covers offset) =
          (token.shown ⟨byteLength front, byteLength front + byteLength text, stop⟩).toList ∧
      token.covers (byteLength front + offset) = true := by
  have total : byteLength front + offset < byteLength source := by
    rw [whole, byteLength_append, byteLength_append]
    omega
  obtain ⟨token, only⟩ := (contiguous_scan source).filter_covers (Nat.zero_le _) total
  have member : token ∈ (scan source).filter (·.covers (byteLength front + offset)) := by
    rw [only]
    exact List.mem_singleton_self token
  refine ⟨token, only, ?_, (List.mem_filter.mp member).2⟩
  rw [filter_covers_filterMap (Nat.add_lt_add_left inside _), only]
  cases shown : token.shown ⟨byteLength front, byteLength front + byteLength text, stop⟩ with
  | none => simp [shown]
  | some highlight => simp [shown]

theorem exists_clip_of_mem {tokens : List Token} {span : LineSpan} {highlight : Highlight}
    (member : highlight ∈ tokens.filterMap (Token.shown span)) :
    ∃ token ∈ tokens, token.clip span = some highlight := by
  obtain ⟨token, scanned, shown⟩ := List.mem_filterMap.mp member
  exact ⟨token, scanned, Token.clip_of_shown shown⟩

/-- What the tokens of a source show on a part of it paints that part. -/
theorem paints_shown {source front text back : Text} (whole : source = front ++ text ++ back)
    (stop : Nat) :
    Paints (scan source) (byteLength front) text ((scan source).filterMap (Token.shown
      ⟨byteLength front, byteLength front + byteLength text, stop⟩)) where
  painted := by
    intro offset inside
    obtain ⟨token, only, highlights, covered⟩ := painted_of_shown whole inside
    refine ⟨token, only, ?_, ?_⟩
    · intro coloured
      obtain ⟨highlight, clip, category⟩ := @Token.exists_clip_of_covers token
        ⟨byteLength front, byteLength front + byteLength text, stop⟩ offset
        (Nat.add_lt_add_left inside _) covered
      refine ⟨highlight, ?_, category⟩
      rw [highlights, Token.shown, if_neg (by simpa [Category.isPlain] using coloured), clip]
      rfl
    · intro plain
      rw [highlights, Token.shown, if_pos (by simpa [Category.isPlain] using plain)]
      rfl
  nonempty := by
    intro highlight member
    obtain ⟨token, _, clip⟩ := exists_clip_of_mem member
    exact ((token.clip_eq_some_iff _ highlight).mp clip).2.2.2
  ordered := pairwise_shown (contiguous_scan source) _
  inside := by
    intro highlight member
    obtain ⟨token, _, clip⟩ := exists_clip_of_mem member
    obtain ⟨_, last, _, _⟩ := (token.clip_eq_some_iff _ highlight).mp clip
    dsimp only at last
    omega
  boundary := by
    intro highlight member
    obtain ⟨token, scanned, clip⟩ := exists_clip_of_mem member
    obtain ⟨first, last⟩ := isBoundary_of_mem_scan scanned
    rw [whole] at first last
    exact isBoundary_of_clip first last clip

theorem length_perLine (source : Text) :
    (Highlight.perLine source).length = (lines source).length := by
  simp [Highlight.perLine, lineSpans_eq]

/-- Every line of every source has its highlights, and they paint the line's text. -/
theorem perLine_paints (source : Text) :
    (Highlight.perLine source).length = (lines source).length ∧
      ∀ index line highlights, (lines source)[index]? = some line →
        (Highlight.perLine source)[index]? = some highlights →
        Paints (scan source) (byteLength ((lines source).take index).flatten) (trimBreak line)
          highlights := by
  refine ⟨length_perLine source, ?_⟩
  intro index line highlights present painted
  obtain ⟨back, whole⟩ := exists_split_of_line present
  rw [getElem?_perLine, getElem?_lineSpans present, Option.map_some, Option.some.injEq] at painted
  rw [← painted]
  exact paints_shown whole _

/-- A comment runs over a line separator onto the second line, which ends in a pair. -/
theorem perLine_paints_comment :
    (lines "ga #\u2028ƙ x\r\n1".toList)[1]? = some "ƙ x\r\n".toList ∧
      (Highlight.perLine "ga #\u2028ƙ x\r\n1".toList)[1]? = some [⟨0, 4, .comment⟩] ∧
        Paints (scan "ga #\u2028ƙ x\r\n1".toList) 7 "ƙ x".toList [⟨0, 4, .comment⟩] := by
  have present : (lines "ga #\u2028ƙ x\r\n1".toList)[1]? = some "ƙ x\r\n".toList := by decide
  have painted : (Highlight.perLine "ga #\u2028ƙ x\r\n1".toList)[1]? =
      some [⟨0, 4, .comment⟩] := by decide +kernel
  exact ⟨present, painted, (perLine_paints "ga #\u2028ƙ x\r\n1".toList).2 1 _ _ present painted⟩

end Dabara
