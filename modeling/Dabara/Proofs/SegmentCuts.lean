import Dabara.Proofs.Segments
import Mathlib.Algebra.BigOperators.Fin
import Mathlib.Order.Bounds.Defs

set_option autoImplicit false

namespace Dabara

theorem isGreatest_floorBoundary (text : Text) (offset : Nat) :
    IsGreatest {boundary | IsBoundary text boundary ∧ boundary ≤ offset}
      (floorBoundary text offset) :=
  ⟨⟨isBoundary_floorBoundary text offset, floorBoundary_le text offset⟩,
    fun _ cut => cut.1.le_floorBoundary cut.2⟩

theorem floorBoundary_mono (text : Text) {first second : Nat} (ordered : first ≤ second) :
    floorBoundary text first ≤ floorBoundary text second :=
  (isBoundary_floorBoundary text first).le_floorBoundary
    ((floorBoundary_le text first).trans ordered)

section Slices

variable {line : Text} {start stop : Nat}

/-- A slice between boundaries, and what stands behind it. -/
theorem sliceBytes_append_dropBytes (first : IsBoundary line start) (second : IsBoundary line stop)
    (ordered : start ≤ stop) :
    sliceBytes line start stop ++ dropBytes stop line = dropBytes start line := by
  obtain ⟨front, middle, back, rfl, rfl, rfl⟩ :=
    exists_gap_middle (List.nil_append line).symm (Nat.zero_le _) ordered first second
  rw [List.nil_append, ← List.append_assoc, sliceBytes_append, dropBytes_append,
    List.append_assoc, dropBytes_append]

theorem byteLength_dropBytes (boundary : IsBoundary line start) :
    byteLength (dropBytes start line) = byteLength line - start := by
  obtain ⟨front, back, rfl, rfl⟩ := boundary
  rw [dropBytes_append, byteLength_append]
  omega

theorem byteLength_sliceBytes (first : IsBoundary line start) (second : IsBoundary line stop)
    (ordered : start ≤ stop) : byteLength (sliceBytes line start stop) = stop - start := by
  have whole := congrArg byteLength (sliceBytes_append_dropBytes first second ordered)
  have inside := second.le_byteLength
  rw [byteLength_append, byteLength_dropBytes first, byteLength_dropBytes second] at whole
  omega

end Slices

namespace Highlight

/-- The piece of a line between two boundaries, left out when there is nothing between them. -/
def cut (category : Category) (line : Text) (start stop : Nat) : List Fragment :=
  if start < stop then [⟨category, sliceBytes line start stop⟩] else []

/-- What a piece of a line is: it is not empty, and stands between two boundaries of the line. -/
structure IsPiece (line piece : Text) : Prop where
  nonempty : piece ≠ []
  between : ∃ start stop, IsBoundary line start ∧ IsBoundary line stop ∧ start < stop ∧
    piece = sliceBytes line start stop

section Cut

variable {category : Category} {line : Text} {start stop : Nat}

theorem isPiece_of_mem_cut (first : IsBoundary line start) (second : IsBoundary line stop)
    {piece : Fragment} (member : piece ∈ cut category line start stop) :
    IsPiece line piece.text := by
  unfold cut at member
  split at member
  · next shown =>
      obtain rfl := List.mem_singleton.mp member
      have length := byteLength_sliceBytes first second (Nat.le_of_lt shown)
      refine ⟨?_, start, stop, first, second, shown, rfl⟩
      intro empty
      dsimp only at empty
      rw [empty, byteLength_nil] at length
      omega
  · cases member

theorem byteLength_join_cut (first : IsBoundary line start) (second : IsBoundary line stop) :
    byteLength (Fragment.join (cut category line start stop)) = stop - start := by
  unfold cut
  split
  · next shown =>
      rw [Fragment.join_cons, Fragment.join_nil, List.append_nil]
      exact byteLength_sliceBytes first second (Nat.le_of_lt shown)
  · rw [Fragment.join_nil, byteLength_nil]
    omega

variable (category) in
/-- A cut and what stands behind it, whichever of its two ends comes first. -/
theorem join_cut_append (first : IsBoundary line start) (second : IsBoundary line stop) :
    Fragment.join (cut category line start stop) ++ dropBytes (max start stop) line =
      dropBytes start line := by
  unfold cut
  split
  · next shown =>
      rw [Fragment.join_cons, Fragment.join_nil, List.append_nil,
        Nat.max_eq_right (Nat.le_of_lt shown)]
      exact sliceBytes_append_dropBytes first second (Nat.le_of_lt shown)
  · rw [Fragment.join_nil, List.nil_append, Nat.max_eq_left (by omega)]

/-- The bytes of a cut belong to its one piece. -/
theorem filter_covers_cut (first : IsBoundary line start) (second : IsBoundary line stop)
    {offset : Nat} (lower : start ≤ offset) (upper : offset < stop) :
    (locate start (cut category line start stop)).filter (·.covers offset) =
      [⟨⟨category, sliceBytes line start stop⟩, start⟩] := by
  have length := byteLength_sliceBytes first second (by omega)
  rw [cut, if_pos (by omega), locate_cons, locate_nil]
  apply List.filter_cons_of_pos
  rw [Token.covers_iff, Token.stop]
  dsimp only
  omega

/-- Bytes outside a cut belong to none of its pieces. -/
theorem filter_covers_cut_outside (first : IsBoundary line start) (second : IsBoundary line stop)
    {offset : Nat} (outside : offset < start ∨ stop ≤ offset) :
    (locate start (cut category line start stop)).filter (·.covers offset) = [] := by
  have path := contiguous_locate start (cut category line start stop)
  rw [byteLength_join_cut first second] at path
  apply path.filter_covers_outside
  omega

end Cut

/-- Where a highlight starts on a line, lowered to a boundary. -/
def lowStart (line : Text) (highlight : Highlight) : Nat :=
  floorBoundary line highlight.start

def lowStop (line : Text) (highlight : Highlight) : Nat :=
  floorBoundary line highlight.stop

/-- The farthest stop of highlights on a line. -/
def reach (line : Text) (highlights : List Highlight) : Nat :=
  (highlights.map (lowStop line)).foldr max 0

/-- The farthest stop of a highlight and those that come before it. -/
def reachAt (line : Text) (highlights : List Highlight) (index : Fin highlights.length) : Nat :=
  reach line (highlights.take (index + 1))

/-- The category that highlights decide for a byte of a line: that of the first highlight that stops
behind the byte, if it starts no later than there. -/
def decided (line : Text) (highlights : List Highlight) (offset : Nat) : Category :=
  match highlights.find? (offset < lowStop line ·) with
  | some highlight => if lowStart line highlight ≤ offset then highlight.category else .plain
  | none => .plain

/-- No highlight stops before it starts. -/
def Forward (highlights : List Highlight) : Prop :=
  ∀ highlight ∈ highlights, highlight.start ≤ highlight.stop

section Loop

variable {line : Text} {position : Nat} {highlight : Highlight} {rest highlights : List Highlight}

variable (highlight) in
theorem isBoundary_lowStart : IsBoundary line (lowStart line highlight) :=
  isBoundary_floorBoundary line highlight.start

variable (highlight) in
theorem isBoundary_lowStop : IsBoundary line (lowStop line highlight) :=
  isBoundary_floorBoundary line highlight.stop

theorem isBoundary_max {first second : Nat} (one : IsBoundary line first)
    (other : IsBoundary line second) : IsBoundary line (max first second) := by
  rcases Nat.le_total first second with ordered | ordered
  · rwa [Nat.max_eq_right ordered]
  · rwa [Nat.max_eq_left ordered]

@[simp] theorem reach_nil : reach line [] = 0 := rfl

@[simp] theorem reach_cons :
    reach line (highlight :: rest) = max (lowStop line highlight) (reach line rest) := rfl

@[simp] theorem reachAt_cons_zero :
    reachAt line (highlight :: rest) (0 : Fin (rest.length + 1)) = lowStop line highlight :=
  Nat.max_zero _

@[simp] theorem reachAt_cons_succ (index : Fin rest.length) :
    reachAt line (highlight :: rest) index.succ =
      max (lowStop line highlight) (reachAt line rest index) := rfl

theorem segmentsFrom_nil (boundary : IsBoundary line position) :
    segmentsFrom line position [] = cut .plain line position (byteLength line) := by
  obtain ⟨front, back, rfl, rfl⟩ := boundary
  have slice := sliceBytes_append front back []
  rw [List.append_nil] at slice
  rw [segmentsFrom, cut, slice, dropBytes_append]

theorem segmentsFrom_cons :
    segmentsFrom line position (highlight :: rest) =
      cut .plain line position (max (lowStart line highlight) position) ++
        cut highlight.category line (max (lowStart line highlight) position)
          (lowStop line highlight) ++
        segmentsFrom line (max position (lowStop line highlight)) rest := rfl

theorem isPiece_of_mem_segmentsFrom (boundary : IsBoundary line position) {piece : Fragment}
    (member : piece ∈ segmentsFrom line position highlights) : IsPiece line piece.text := by
  induction highlights generalizing position with
  | nil =>
      rw [segmentsFrom_nil boundary] at member
      exact isPiece_of_mem_cut boundary (isBoundary_byteLength line) member
  | cons highlight rest ih =>
      have begins := isBoundary_max (isBoundary_lowStart highlight) boundary
      rw [segmentsFrom_cons, List.mem_append, List.mem_append] at member
      rcases member with (gap | body) | later
      · exact isPiece_of_mem_cut boundary begins gap
      · exact isPiece_of_mem_cut begins (isBoundary_lowStop highlight) body
      · exact ih (isBoundary_max boundary (isBoundary_lowStop highlight)) later

variable (highlights) in
/-- The bytes of the pieces behind a position, counted from the start of the line. -/
theorem byteLength_join_segmentsFrom (boundary : IsBoundary line position) :
    position + byteLength (Fragment.join (segmentsFrom line position highlights)) =
      byteLength line + ∑ index : Fin highlights.length,
        (lowStart line (highlights.get index) -
          max position (reachAt line highlights index)) := by
  induction highlights generalizing position with
  | nil =>
      have inside := boundary.le_byteLength
      rw [segmentsFrom_nil boundary, byteLength_join_cut boundary (isBoundary_byteLength line)]
      simp
      omega
  | cons highlight rest ih =>
      have begins := isBoundary_max (isBoundary_lowStart highlight) boundary
      have later := ih (isBoundary_max boundary (isBoundary_lowStop highlight))
      rw [segmentsFrom_cons, Fragment.join_append, Fragment.join_append, byteLength_append,
        byteLength_append, byteLength_join_cut boundary begins,
        byteLength_join_cut begins (isBoundary_lowStop highlight)]
      -- The first term of the sum is what the gap goes beyond the highlight's own stop.
      simp only [max_assoc] at later
      simp only [List.length_cons, Fin.sum_univ_succ, List.get_cons_zero, List.get_cons_succ',
        reachAt_cons_zero, reachAt_cons_succ]
      omega

/-- Where every highlight starts within the reach, the pieces behind a position are what stands
behind it. -/
theorem join_segmentsFrom (boundary : IsBoundary line position)
    (within : ∀ index, lowStart line (highlights.get index) ≤
      max position (reachAt line highlights index)) :
    Fragment.join (segmentsFrom line position highlights) = dropBytes position line := by
  induction highlights generalizing position with
  | nil =>
      have whole := join_cut_append .plain boundary (isBoundary_byteLength line)
      have nothing : dropBytes (byteLength line) line = [] := by
        simpa using dropBytes_append line []
      rwa [Nat.max_eq_right boundary.le_byteLength, nothing, List.append_nil,
        ← segmentsFrom_nil boundary] at whole
  | cons highlight rest ih =>
      have begins := isBoundary_max (isBoundary_lowStart highlight) boundary
      have ends := isBoundary_max boundary (isBoundary_lowStop highlight)
      obtain ⟨first, others⟩ := Fin.forall_fin_succ.mp within
      simp only [List.get_cons_zero, List.get_cons_succ', reachAt_cons_zero, reachAt_cons_succ,
        ← max_assoc] at first others
      have later := ih ends others
      have gap := join_cut_append .plain boundary begins
      have body := join_cut_append highlight.category begins (isBoundary_lowStop highlight)
      rw [Nat.max_eq_right (Nat.le_max_right _ _)] at gap
      rw [show max (max (lowStart line highlight) position) (lowStop line highlight) =
        max position (lowStop line highlight) by omega] at body
      rw [segmentsFrom_cons, Fragment.join_append, Fragment.join_append, later, List.append_assoc,
        body, gap]

theorem Forward.lowStart_le (forward : Forward highlights) (member : highlight ∈ highlights) :
    lowStart line highlight ≤ lowStop line highlight :=
  floorBoundary_mono line (forward highlight member)

theorem le_reach (member : highlight ∈ highlights) :
    lowStop line highlight ≤ reach line highlights := by
  induction highlights with
  | nil => cases member
  | cons first rest ih =>
      rw [reach_cons]
      rcases List.mem_cons.mp member with rfl | later
      · exact Nat.le_max_left _ _
      · exact (ih later).trans (Nat.le_max_right _ _)

/-- A highlight that does not stop before it starts, starts within the reach. -/
theorem Forward.within (forward : Forward highlights) (index : Fin highlights.length) :
    lowStart line (highlights.get index) ≤ reachAt line highlights index := by
  have listed : highlights.get index ∈ highlights.take (index + 1) :=
    List.mem_take_iff_getElem.mpr ⟨index, by simp, rfl⟩
  exact (forward.lowStart_le (List.get_mem highlights index)).trans (le_reach listed)

theorem decided_cons (offset : Nat) :
    decided line (highlight :: rest) offset =
      if offset < lowStop line highlight then
        if lowStart line highlight ≤ offset then highlight.category else .plain
      else decided line rest offset := by
  unfold decided
  rw [List.find?_cons]
  by_cases before : offset < lowStop line highlight
  · rw [decide_eq_true before, if_pos before]
  · rw [decide_eq_false before, if_neg before]

/-- The pieces of a line with their offsets: the gap before the first highlight, the highlight, and
the pieces behind it. -/
theorem locate_segmentsFrom_cons (boundary : IsBoundary line position)
    (forward : lowStart line highlight ≤ lowStop line highlight) :
    locate position (segmentsFrom line position (highlight :: rest)) =
      locate position (cut .plain line position (max (lowStart line highlight) position)) ++
        locate (max (lowStart line highlight) position)
          (cut highlight.category line (max (lowStart line highlight) position)
            (lowStop line highlight)) ++
        locate (max position (lowStop line highlight))
          (segmentsFrom line (max position (lowStop line highlight)) rest) := by
  have begins := isBoundary_max (isBoundary_lowStart highlight) boundary
  have gap : position + (max (lowStart line highlight) position - position) =
      max (lowStart line highlight) position := by omega
  have body : position + (max (lowStart line highlight) position - position +
      (lowStop line highlight - max (lowStart line highlight) position)) =
      max position (lowStop line highlight) := by omega
  rw [segmentsFrom_cons, locate_append, locate_append, Fragment.join_append, byteLength_append,
    byteLength_join_cut boundary begins, byteLength_join_cut begins (isBoundary_lowStop highlight),
    gap, body]

/-- The pieces behind a position give each byte there the category that the highlights decide. -/
theorem filter_covers_segmentsFrom (boundary : IsBoundary line position)
    (forward : Forward highlights) {offset : Nat} (lower : position ≤ offset)
    (upper : offset < byteLength line) :
    ∃ piece, (locate position (segmentsFrom line position highlights)).filter
        (·.covers offset) = [piece] ∧
      piece.category = decided line highlights offset := by
  induction highlights generalizing position with
  | nil =>
      rw [segmentsFrom_nil boundary,
        filter_covers_cut boundary (isBoundary_byteLength line) lower upper]
      exact ⟨_, rfl, rfl⟩
  | cons highlight rest ih =>
      have begins := isBoundary_max (isBoundary_lowStart highlight) boundary
      have stops : IsBoundary line (lowStop line highlight) := isBoundary_lowStop highlight
      have low : lowStart line highlight ≤ lowStop line highlight :=
        forward.lowStart_le List.mem_cons_self
      obtain ⟨_, others⟩ := List.forall_mem_cons.mp forward
      rw [locate_segmentsFrom_cons boundary low, List.filter_append, List.filter_append,
        decided_cons]
      have path := contiguous_locate (max position (lowStop line highlight))
        (segmentsFrom line (max position (lowStop line highlight)) rest)
      -- The byte is in the gap before the highlight, in the highlight, or left to the others. Since
      -- the highlight stops no earlier than it starts, it decides the gap as well.
      by_cases inGap : offset < max (lowStart line highlight) position
      · rw [filter_covers_cut boundary begins lower inGap,
          filter_covers_cut_outside begins stops (Or.inl inGap),
          path.filter_covers_outside (Or.inl (by omega)), if_pos (by omega), if_neg (by omega)]
        exact ⟨_, rfl, rfl⟩
      · rw [filter_covers_cut_outside boundary begins (Or.inr (by omega))]
        by_cases inBody : offset < lowStop line highlight
        · rw [filter_covers_cut begins stops (by omega) inBody,
            path.filter_covers_outside (Or.inl (by omega)), if_pos inBody, if_pos (by omega)]
          exact ⟨_, rfl, rfl⟩
        · rw [filter_covers_cut_outside begins stops (Or.inr (by omega)), if_neg inBody]
          exact ih (isBoundary_max boundary stops) others (by omega)

end Loop

/-- What the pieces of a line are, whatever the highlights that cut it: parts of the line, which
hold the line once and again as much of it as highlights start behind the reach. -/
structure Cuts (highlights : List Highlight) (line : Text) (pieces : List Fragment) : Prop where
  lowered : ∀ highlight ∈ highlights,
    IsGreatest {boundary | IsBoundary line boundary ∧ boundary ≤ highlight.start}
      (lowStart line highlight) ∧
    IsGreatest {boundary | IsBoundary line boundary ∧ boundary ≤ highlight.stop}
      (lowStop line highlight)
  piece : ∀ piece ∈ pieces, IsPiece line piece.text
  length : byteLength (Fragment.join pieces) = byteLength line +
    ∑ index : Fin highlights.length,
      (lowStart line (highlights.get index) - reachAt line highlights index)
  whole : Fragment.join pieces = line ↔
    ∀ index, lowStart line (highlights.get index) ≤ reachAt line highlights index
  within : Forward highlights →
    ∀ index, lowStart line (highlights.get index) ≤ reachAt line highlights index

theorem byteLength_join_segments (highlights : List Highlight) (line : Text) :
    byteLength (Fragment.join (segments highlights line)) = byteLength line +
      ∑ index : Fin highlights.length,
        (lowStart line (highlights.get index) - reachAt line highlights index) := by
  have measured := byteLength_join_segmentsFrom highlights (isBoundary_zero line)
  simp only [Nat.zero_add, Nat.zero_max] at measured
  exact measured

theorem join_segments {highlights : List Highlight} {line : Text}
    (within : ∀ index, lowStart line (highlights.get index) ≤ reachAt line highlights index) :
    Fragment.join (segments highlights line) = line := by
  have joined := join_segmentsFrom (isBoundary_zero line) fun index =>
    (within index).trans (Nat.le_max_right 0 _)
  exact joined.trans (dropBytes_append [] line)

/-- The pieces of every line, cut by any highlights. -/
theorem segments_cut (highlights : List Highlight) (line : Text) :
    Cuts highlights line (segments highlights line) where
  lowered := fun highlight _ =>
    ⟨isGreatest_floorBoundary line highlight.start, isGreatest_floorBoundary line highlight.stop⟩
  piece := fun _ member => isPiece_of_mem_segmentsFrom (isBoundary_zero line) member
  length := byteLength_join_segments highlights line
  whole := by
    refine ⟨?_, join_segments⟩
    intro joined index
    have measured := byteLength_join_segments highlights line
    rw [joined] at measured
    -- No text is repeated, so every term of the sum is zero.
    have none : ∑ index : Fin highlights.length,
        (lowStart line (highlights.get index) - reachAt line highlights index) = 0 := by
      omega
    have zero := Finset.sum_eq_zero_iff.mp none index (Finset.mem_univ index)
    omega
  within := Forward.within

/-- A highlight that stops before it starts has text repeated. -/
example : segments [⟨2, 1, .keyword⟩] ['a', 'b'] = [⟨.plain, ['a', 'b']⟩, ⟨.plain, ['b']⟩] := by
  decide

/-- The highlights of the lines of a source never stop before they start. -/
theorem forward_of_mem_perLine {source : Text} {highlights : List Highlight}
    (member : highlights ∈ perLine source) : Forward highlights := by
  obtain ⟨index, present⟩ := List.getElem?_of_mem member
  have inside : index < (lines source).length := by
    rw [← length_perLine]
    exact (List.getElem?_eq_some_iff.mp present).1
  obtain ⟨painted, found, paints⟩ := exists_paints (List.getElem?_eq_getElem inside)
  obtain rfl : highlights = painted := Option.some.inj (present.symm.trans found)
  exact fun highlight listed => Nat.le_of_lt (paints.nonempty highlight listed)

/-- Where no highlight stops before it starts, as in the lines of a source, the pieces are the line,
and each of its bytes has the category that the first highlight that stops behind it decides. -/
theorem segments_decided :
    (∀ source, ∀ highlights ∈ perLine source, Forward highlights) ∧
      ∀ highlights line, Forward highlights →
        Fragment.join (segments highlights line) = line ∧
          ∀ offset < byteLength line, ∃ piece,
            (locate 0 (segments highlights line)).filter (·.covers offset) = [piece] ∧
              piece.category = decided line highlights offset := by
  refine ⟨fun source highlights member => forward_of_mem_perLine member, ?_⟩
  intro highlights line forward
  refine ⟨join_segments forward.within, ?_⟩
  intro offset inside
  exact filter_covers_segmentsFrom (isBoundary_zero line) forward (Nat.zero_le offset) inside

/-- The first highlight leaves the letter before it plain, although the second covers it. -/
theorem segments_decided_letter :
    Forward [⟨2, 3, .string⟩, ⟨1, 4, .number⟩] ∧
      decided "ƙab".toList [⟨2, 3, .string⟩, ⟨1, 4, .number⟩] 1 = .plain ∧
        ∃ piece, (locate 0 (segments [⟨2, 3, .string⟩, ⟨1, 4, .number⟩] "ƙab".toList)).filter
            (·.covers 1) = [piece] ∧ piece.category = .plain := by
  have forward : Forward [⟨2, 3, .string⟩, ⟨1, 4, .number⟩] := by
    simp [Forward]
  have plain : decided "ƙab".toList [⟨2, 3, .string⟩, ⟨1, 4, .number⟩] 1 = .plain := by decide
  obtain ⟨piece, only, category⟩ :=
    (segments_decided.2 _ "ƙab".toList forward).2 1 (by decide)
  exact ⟨forward, plain, piece, only, category.trans plain⟩

end Highlight

end Dabara
