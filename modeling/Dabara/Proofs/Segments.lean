import Dabara.Proofs.LineHighlights

set_option autoImplicit false

namespace Dabara

/-- The characters of a text from an offset on, each with the category of its first byte. -/
def tag (category : Nat → Category) (offset : Nat) : Text → List (Char × Category)
  | [] => []
  | c :: rest => (c, category offset) :: tag category (offset + c.utf8Size) rest

@[simp] theorem length_tag (category : Nat → Category) (offset : Nat) (text : Text) :
    (tag category offset text).length = text.length := by
  induction text generalizing offset with
  | nil => rfl
  | cons c rest ih => simp [tag, ih]

theorem map_fst_tag (category : Nat → Category) (offset : Nat) (text : Text) :
    (tag category offset text).map Prod.fst = text := by
  induction text generalizing offset with
  | nil => rfl
  | cons c rest ih => simp [tag, ih]

theorem tag_append (category : Nat → Category) (offset : Nat) (first second : Text) :
    tag category offset (first ++ second) =
      tag category offset first ++ tag category (offset + byteLength first) second := by
  induction first generalizing offset with
  | nil => rfl
  | cons c rest ih => simp [tag, ih, Nat.add_assoc]

theorem getElem?_tag (category : Nat → Category) (offset : Nat) (text : Text) (index : Nat) :
    (tag category offset text)[index]? =
      text[index]?.map (·, category (offset + byteLength (text.take index))) := by
  induction text generalizing offset index with
  | nil => simp [tag]
  | cons c rest ih =>
      cases index with
      | zero => simp [tag]
      | succ index => simp [tag, ih, Nat.add_assoc]

theorem tag_congr {first second : Nat → Category} {offset : Nat} {text : Text}
    (same : ∀ place, offset ≤ place → place < offset + byteLength text →
      first place = second place) :
    tag first offset text = tag second offset text := by
  induction text generalizing offset with
  | nil => rfl
  | cons c rest ih =>
      have positive := c.utf8Size_pos
      rw [byteLength_cons] at same
      have head := same offset (Nat.le_refl _) (by omega)
      have tail : tag first (offset + c.utf8Size) rest = tag second (offset + c.utf8Size) rest :=
        ih fun place lower upper => same place (by omega) (by omega)
      rw [tag, tag, head, tail]

/-- A text of one category. -/
theorem tag_const (category : Category) (offset : Nat) (text : Text) :
    tag (fun _ => category) offset text = text.map (·, category) := by
  induction text generalizing offset with
  | nil => rfl
  | cons c rest ih => simp [tag, ih]

/-- The characters of pieces, each with the category of its piece. -/
def Fragment.tagged (parts : List Fragment) : List (Char × Category) :=
  parts.flatMap fun part => part.text.map (·, part.category)

@[simp] theorem Fragment.tagged_nil : tagged [] = [] := rfl

@[simp] theorem Fragment.tagged_cons (part : Fragment) (rest : List Fragment) :
    tagged (part :: rest) = part.text.map (·, part.category) ++ tagged rest := rfl

@[simp] theorem Fragment.tagged_append (first second : List Fragment) :
    tagged (first ++ second) = tagged first ++ tagged second := by
  simp [tagged]

theorem eq_nil_of_byteLength {text : Text} (empty : byteLength text = 0) : text = [] := by
  by_cases nonempty : text = []
  · exact nonempty
  · have positive := byteLength_pos nonempty
    omega

/-- A character of a text begins before the end of the text. -/
theorem byteLength_take_lt {text : Text} {index : Nat} (inside : index < text.length) :
    byteLength (text.take index) < byteLength text := by
  have behind : text.drop index ≠ [] := by
    rw [ne_eq, List.drop_eq_nil_iff]
    omega
  have positive := byteLength_pos behind
  have total := congrArg byteLength (List.take_append_drop index text)
  rw [byteLength_append] at total
  omega

theorem sliceBytes_append (front middle back : Text) :
    sliceBytes (front ++ middle ++ back) (byteLength front) (byteLength (front ++ middle)) =
      middle := by
  rw [sliceBytes, byteLength_append, Nat.add_sub_cancel_left, List.append_assoc, dropBytes_append,
    takeBytes_append]

/-- Two boundaries behind a cut of a text cut the rest in three. -/
theorem exists_gap_middle {line front rest : Text} (whole : line = front ++ rest) {start stop : Nat}
    (lower : byteLength front ≤ start) (upper : start ≤ stop) (first : IsBoundary line start)
    (second : IsBoundary line stop) :
    ∃ gap middle tail, rest = gap ++ (middle ++ tail) ∧ start = byteLength (front ++ gap) ∧
      stop = byteLength (front ++ gap ++ middle) := by
  obtain ⟨before, later, startCut, rfl⟩ := first
  obtain ⟨through, tail, stopCut, rfl⟩ := second
  obtain ⟨gap, rfl, rfl⟩ := exists_middle (whole.symm.trans startCut.symm) lower
  obtain ⟨middle, rfl, rfl⟩ := exists_middle (startCut.trans stopCut.symm) upper
  exact ⟨gap, middle, tail, rfl, rfl, rfl⟩

namespace Highlight

/-- The category that highlights give a byte of a line. -/
def categoryAt (highlights : List Highlight) (offset : Nat) : Category :=
  ((highlights.find? (·.covers offset)).map (·.category)).getD .plain

theorem categoryAt_cons (first : Highlight) (rest : List Highlight) (offset : Nat) :
    categoryAt (first :: rest) offset =
      if first.covers offset = true then first.category else categoryAt rest offset := by
  rw [categoryAt, List.find?_cons]
  cases first.covers offset <;> rfl

theorem categoryAt_of_before {highlights : List Highlight} {offset : Nat}
    (before : ∀ highlight ∈ highlights, offset < highlight.start) :
    categoryAt highlights offset = .plain := by
  have none : highlights.find? (·.covers offset) = none := by
    rw [List.find?_eq_none]
    intro highlight member covered
    have covered := (highlight.covers_iff offset).mp covered
    have later := before highlight member
    omega
  rw [categoryAt, none]
  rfl

/-- A piece that is left out when it is empty adds no characters. -/
theorem tagged_piece (shown : Prop) [Decidable shown] (category : Category) {text : Text}
    (empty : ¬ shown → text = []) :
    Fragment.tagged (if shown then [⟨category, text⟩] else []) = text.map (·, category) := by
  split
  · simp
  · next hidden => simp [empty hidden]

/-- The first highlight behind a cut leaves the gap before it plain, gives its own characters its
category and leaves what follows to the others. -/
theorem tag_categoryAt_cons {first : Highlight} {others : List Highlight}
    {front gap middle : Text} (tail : Text) (start : first.start = byteLength (front ++ gap))
    (stop : first.stop = byteLength (front ++ gap ++ middle))
    (later : ∀ highlight ∈ others, first.stop ≤ highlight.start) :
    tag (categoryAt (first :: others)) (byteLength front) (gap ++ (middle ++ tail)) =
      gap.map (·, .plain) ++ middle.map (·, first.category) ++
        tag (categoryAt others) first.stop tail := by
  rw [byteLength_append] at start
  rw [byteLength_append, byteLength_append, ← start] at stop
  have inGap : tag (categoryAt (first :: others)) (byteLength front) gap =
      gap.map (·, .plain) := by
    rw [← tag_const .plain (byteLength front)]
    apply tag_congr
    intro place _ upper
    apply categoryAt_of_before
    intro highlight member
    rcases List.mem_cons.mp member with rfl | other
    · omega
    · have behind := later highlight other
      omega
  have inMiddle : tag (categoryAt (first :: others)) first.start middle =
      middle.map (·, first.category) := by
    rw [← tag_const first.category first.start]
    apply tag_congr
    intro place lower upper
    rw [categoryAt_cons, if_pos ((first.covers_iff place).mpr (by omega))]
  have inTail : tag (categoryAt (first :: others)) first.stop tail =
      tag (categoryAt others) first.stop tail := by
    apply tag_congr
    intro place lower _
    rw [categoryAt_cons, if_neg (mt (first.covers_iff place).mp (by omega))]
  rw [tag_append, tag_append, inGap, ← start, inMiddle, ← stop, inTail, List.append_assoc]

/-- The pieces from a cut of the line on, by highlights that stand behind the cut in order and on
boundaries. -/
theorem tagged_segmentsFrom {highlights : List Highlight} {line front rest : Text}
    (whole : line = front ++ rest)
    (behind : ∀ highlight ∈ highlights, byteLength front ≤ highlight.start)
    (nonempty : ∀ highlight ∈ highlights, highlight.start < highlight.stop)
    (ordered : highlights.Pairwise fun first second => first.stop ≤ second.start)
    (boundary : ∀ highlight ∈ highlights,
      IsBoundary line highlight.start ∧ IsBoundary line highlight.stop) :
    Fragment.tagged (segmentsFrom line (byteLength front) highlights) =
      tag (categoryAt highlights) (byteLength front) rest := by
  induction highlights generalizing front rest with
  | nil =>
      have plain : tag (categoryAt []) (byteLength front) rest = rest.map (·, .plain) :=
        tag_const .plain _ rest
      rw [segmentsFrom, plain, whole, dropBytes_append]
      apply tagged_piece
      intro none
      rw [byteLength_append] at none
      exact eq_nil_of_byteLength (by omega)
  | cons first others ih =>
      obtain ⟨firstBehind, _⟩ := List.forall_mem_cons.mp behind
      obtain ⟨firstShown, othersShown⟩ := List.forall_mem_cons.mp nonempty
      obtain ⟨⟨startBoundary, stopBoundary⟩, othersBoundary⟩ := List.forall_mem_cons.mp boundary
      obtain ⟨firstBefore, othersOrdered⟩ := List.pairwise_cons.mp ordered
      -- Boundaries are not lowered, so the line is cut where the highlight begins and stops.
      obtain ⟨gap, middle, tail, rfl, start, stop⟩ :=
        exists_gap_middle whole firstBehind (Nat.le_of_lt firstShown) startBoundary stopBoundary
      have gapPiece : sliceBytes line (byteLength front) first.start = gap := by
        rw [whole, start, ← List.append_assoc]
        exact sliceBytes_append front gap (middle ++ tail)
      have middlePiece : sliceBytes line first.start first.stop = middle := by
        rw [whole, start, stop, ← List.append_assoc, ← List.append_assoc]
        exact sliceBytes_append (front ++ gap) middle tail
      have later : Fragment.tagged (segmentsFrom line first.stop others) =
          tag (categoryAt others) first.stop tail := by
        rw [stop] at firstBefore ⊢
        exact ih (by simp [whole]) firstBefore othersShown othersOrdered othersBoundary
      have noGap : ¬ byteLength front < first.start → gap = [] := by
        intro none
        rw [start, byteLength_append] at none
        exact eq_nil_of_byteLength (by omega)
      rw [segmentsFrom, (isBoundary_iff_floorBoundary _ _).mp startBoundary,
        (isBoundary_iff_floorBoundary _ _).mp stopBoundary, Nat.max_eq_left firstBehind,
        Nat.max_eq_right (by omega), gapPiece, middlePiece, Fragment.tagged_append,
        Fragment.tagged_append, later, tagged_piece _ _ noGap, if_pos firstShown,
        tag_categoryAt_cons tail start stop firstBefore]
      simp

end Highlight

/-- Highlights that paint a line give each of its bytes the category of the byte's token. -/
theorem Paints.categoryAt {tokens : List Token} {start : Nat} {text : Text}
    {highlights : List Highlight} (paints : Paints tokens start text highlights) {offset : Nat}
    (inside : offset < byteLength text) :
    ∃ token, tokens.filter (·.covers (start + offset)) = [token] ∧
      Highlight.categoryAt highlights offset = token.category := by
  obtain ⟨token, only, coloured, plain⟩ := paints.painted offset inside
  refine ⟨token, only, ?_⟩
  rw [Highlight.categoryAt, ← List.head?_filter]
  by_cases isPlain : token.category = .plain
  · rw [plain isPlain, isPlain]
    rfl
  · obtain ⟨highlight, found, category⟩ := coloured isPlain
    rw [found, ← category]
    rfl

/-- The pieces of a painted line are its text, each character in the category that the highlights
give it. -/
theorem Paints.tagged_segments {tokens : List Token} {start : Nat} {text : Text}
    {highlights : List Highlight} (paints : Paints tokens start text highlights) :
    Fragment.tagged (Highlight.segments highlights text) =
      tag (Highlight.categoryAt highlights) 0 text :=
  Highlight.tagged_segmentsFrom (List.nil_append text).symm (fun _ _ => Nat.zero_le _)
    paints.nonempty paints.ordered paints.boundary

/-- Every line has highlights that paint it. -/
theorem exists_paints {source line : Text} {index : Nat}
    (present : (lines source)[index]? = some line) :
    ∃ highlights, (Highlight.perLine source)[index]? = some highlights ∧
      Paints (scan source) (byteLength ((lines source).take index).flatten) (trimBreak line)
        highlights := by
  obtain ⟨back, whole⟩ := exists_split_of_line present
  rw [getElem?_perLine, getElem?_lineSpans present, Option.map_some]
  exact ⟨_, rfl, paints_shown whole _⟩

end Dabara
