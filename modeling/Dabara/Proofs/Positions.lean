import Dabara.Proofs.BufferEdits
import Dabara.Proofs.EditLaws
import Mathlib.Data.List.Chain
import Mathlib.Data.List.Range

set_option autoImplicit false

namespace Dabara

namespace Buffer

def linePositions (line length : Nat) : List Cursor :=
  (List.range (length + 1)).map (Cursor.mk line)

/-- The positions inside a text, line by line. -/
def positions (buffer : Buffer) : List Cursor :=
  (buffer.lineLengths.mapIdx linePositions).flatten

/-- The number of characters before a position. -/
def index (buffer : Buffer) (cursor : Cursor) : Nat :=
  buffer.offset cursor.line cursor.column

variable {buffer : Buffer}

theorem mem_linePositions {line length : Nat} {cursor : Cursor} :
    cursor ∈ linePositions line length ↔ cursor.line = line ∧ cursor.column ≤ length := by
  obtain ⟨row, column⟩ := cursor
  simp only [linePositions, List.mem_map, List.mem_range, Cursor.mk.injEq]
  constructor
  · rintro ⟨found, bound, rfl, rfl⟩
    exact ⟨rfl, by omega⟩
  · rintro ⟨rfl, bound⟩
    exact ⟨column, by omega, rfl, rfl⟩

theorem head?_linePositions (line length : Nat) :
    (linePositions line length).head? = some ⟨line, 0⟩ := by
  simp [linePositions, List.range_succ_eq_map]

theorem getLast?_linePositions (line length : Nat) :
    (linePositions line length).getLast? = some ⟨line, length⟩ := by
  simp [linePositions, List.range_succ]

theorem linePositions_ne_nil (line length : Nat) : linePositions line length ≠ [] := by
  simp [linePositions]

theorem length_lineLengths (buffer : Buffer) : buffer.lineLengths.length = buffer.lineCount := by
  simp [lineLengths, lineCount]

theorem exists_lineLength? {line : Nat} (inside : line < buffer.lineCount) :
    ∃ length, buffer.lineLength? line = some length := by
  obtain ⟨body, ending, has⟩ := exists_hasLine inside
  exact ⟨body.length, has.lineLength?⟩

theorem lt_lineCount {line length : Nat} (present : buffer.lineLength? line = some length) :
    line < buffer.lineCount := by
  rw [← getElem?_lineLengths] at present
  rw [← length_lineLengths]
  exact (List.getElem?_eq_some_iff.mp present).1

theorem mem_positions {cursor : Cursor} :
    cursor ∈ buffer.positions ↔
      ∃ length, buffer.lineLength? cursor.line = some length ∧ cursor.column ≤ length := by
  simp only [positions, List.mem_flatten, List.mem_mapIdx]
  constructor
  · rintro ⟨_, ⟨line, inside, rfl⟩, member⟩
    obtain ⟨rfl, bound⟩ := mem_linePositions.mp member
    refine ⟨_, ?_, bound⟩
    rw [← getElem?_lineLengths, List.getElem?_eq_getElem inside]
  · rintro ⟨length, present, bound⟩
    rw [← getElem?_lineLengths] at present
    obtain ⟨inside, rfl⟩ := List.getElem?_eq_some_iff.mp present
    exact ⟨_, ⟨cursor.line, inside, rfl⟩, mem_linePositions.mpr ⟨rfl, bound⟩⟩

/-- The text begins with the first position. -/
theorem head?_positions (buffer : Buffer) : buffer.positions.head? = some ⟨0, 0⟩ := by
  obtain ⟨length, rest, shape⟩ : ∃ length rest, buffer.lineLengths = length :: rest := by
    apply List.exists_cons_of_ne_nil
    simp [lineLengths, lines_ne_nil]
  rw [positions, shape, List.mapIdx_cons, List.flatten_cons,
    List.head?_append_of_ne_nil _ (linePositions_ne_nil _ _), head?_linePositions]

/-- The last position is behind the last line. -/
theorem getLast?_positions (buffer : Buffer) :
    ∃ line length, buffer.positions.getLast? = some ⟨line, length⟩ ∧
      buffer.lineLength? line = some length ∧ line + 1 = buffer.lineCount := by
  have nonempty : buffer.lineLengths ≠ [] := by simp [lineLengths, lines_ne_nil]
  obtain ⟨init, length, shape⟩ := (List.eq_nil_or_concat buffer.lineLengths).resolve_left nonempty
  rw [List.concat_eq_append] at shape
  refine ⟨init.length, length, ?_, ?_, ?_⟩
  · rw [positions, shape, List.mapIdx_concat, List.flatten_append, List.flatten_singleton,
      List.getLast?_append_of_ne_nil _ (linePositions_ne_nil _ _), getLast?_linePositions]
  · rw [← getElem?_lineLengths, shape, List.getElem?_concat_length]
  · rw [← length_lineLengths, shape, List.length_append, List.length_singleton]

/-- A position inside a text has behind it what is left of its line and of the text. -/
theorem exists_place_measured {line length column : Nat}
    (present : buffer.lineLength? line = some length) (inside : column ≤ length) :
    ∃ place : Place, buffer.text = place.text ∧ place.cursor = ⟨line, column⟩ ∧
      column + place.right.length = length ∧
      line + 1 + place.after.length = buffer.lineCount := by
  obtain ⟨place, text, cursor⟩ := exists_place present inside
  obtain ⟨rfl, rfl⟩ := Cursor.mk.inj cursor
  rw [lineLength?_of_place text, Option.some.injEq] at present
  have count := lineCount_of_place text
  exact ⟨place, text, rfl, present, by omega⟩

/-- A place with more text before it is a later position. -/
theorem index_lt_of_front {place next : Place} {unit : Text} (text : buffer.text = place.text)
    (same : next.text = place.text) (front : next.front = place.front ++ unit)
    (nonempty : unit ≠ []) : buffer.index place.cursor < buffer.index next.cursor := by
  have positive := List.length_pos_iff.mpr nonempty
  have here : buffer.index place.cursor = place.point := offset_of_place text
  have there : buffer.index next.cursor = next.point := offset_of_place (text.trans same.symm)
  rw [here, there, ← place.length_front, ← next.length_front, front, List.length_append]
  omega

end Buffer

namespace Editor

/-- One position is next to another: going right leads there and going left back again, and
something stands between them. -/
structure Follows (editor : Editor) (first second : Cursor) : Prop where
  right : { editor with cursor := first }.right? = some { editor with cursor := second }
  left : { editor with cursor := second }.left? = some { editor with cursor := first }
  later : editor.buffer.index first < editor.buffer.index second

variable {editor : Editor}

theorem at_place {place : Place} (text : editor.buffer.text = place.text) :
    { editor with cursor := place.cursor }.At place :=
  ⟨text, rfl, rfl⟩

/-- The next position when a character of the line stands behind a place. -/
theorem follows_of_cons {place : Place} (text : editor.buffer.text = place.text) {right : Text}
    {c : Char} (shape : place.right = c :: right) :
    editor.Follows place.cursor ⟨place.cursor.line, place.cursor.column + 1⟩ := by
  let next := place.resplit (place.left ++ [c]) right (by simp [shape])
  have same : next.text = place.text := place.text_resplit _
  have cursor : next.cursor = ⟨place.cursor.line, place.cursor.column + 1⟩ := by
    simp [next, Place.cursor, Place.resplit]
  have front : next.front = place.front ++ [c] := by
    simp [next, Place.front, Place.resplit]
  rw [← cursor]
  constructor
  case right =>
    rw [(at_place text).right?_of_cons shape, cursor]
    rfl
  case left => exact (at_place (text.trans same.symm)).left?_of_concat rfl
  case later => exact Buffer.index_lt_of_front text same front (List.cons_ne_nil c [])

/-- The next position when the break of the line stands behind a place. -/
theorem follows_of_isAbove {above below : Place} (text : editor.buffer.text = above.text)
    (isAbove : above.IsAbove below) (atEnd : above.right = []) (atStart : below.left = []) :
    editor.Follows above.cursor ⟨above.cursor.line + 1, 0⟩ := by
  have textBelow : editor.buffer.text = below.text := text.trans isAbove.text
  have cursor : below.cursor = ⟨above.cursor.line + 1, 0⟩ := by
    simp [Place.cursor, isAbove.before, atStart]
  rw [← cursor]
  constructor
  case right =>
    rw [(at_place text).right?_of_isAbove isAbove atEnd, cursor]
    rfl
  case left =>
    rw [(at_place textBelow).left?_of_isAbove isAbove atEnd atStart]
    show some (Editor.moveTo _ (below.cursor.line - 1) above.left.length) = _
    rw [cursor]
    rfl
  case later =>
    exact Buffer.index_lt_of_front text isAbove.text.symm (isAbove.front atEnd atStart)
      isAbove.isBreak.ne_nil

theorem follows_inside {line length column : Nat}
    (present : editor.buffer.lineLength? line = some length) (inside : column < length) :
    editor.Follows ⟨line, column⟩ ⟨line, column + 1⟩ := by
  obtain ⟨place, text, cursor, measured, _⟩ :=
    Buffer.exists_place_measured present (Nat.le_of_lt inside)
  have more : place.right ≠ [] := by
    rw [← List.length_pos_iff]
    omega
  obtain ⟨c, right, shape⟩ := List.exists_cons_of_ne_nil more
  have follows := follows_of_cons text shape
  rwa [cursor] at follows

theorem follows_across {line length : Nat}
    (present : editor.buffer.lineLength? line = some length)
    (more : line + 1 < editor.buffer.lineCount) : editor.Follows ⟨line, length⟩ ⟨line + 1, 0⟩ := by
  obtain ⟨place, text, cursor, measured, counted⟩ :=
    Buffer.exists_place_measured present (Nat.le_refl length)
  have atEnd : place.right = [] := List.eq_nil_of_length_eq_zero (by omega)
  have notLast : place.after ≠ [] := by
    rw [← List.length_pos_iff]
    omega
  obtain ⟨below, isAbove, atStart⟩ := place.exists_below notLast
  have follows := follows_of_isAbove text isAbove atEnd atStart
  rwa [cursor] at follows

/-- Behind the last line the text ends, and there is nowhere to go. -/
theorem stays_at_end {line length : Nat}
    (present : editor.buffer.lineLength? line = some length)
    (last : line + 1 = editor.buffer.lineCount) :
    { editor with cursor := ⟨line, length⟩ }.AtTextEnd ∧
      { editor with cursor := ⟨line, length⟩ }.right? =
        some { editor with cursor := ⟨line, length⟩ } := by
  obtain ⟨place, text, cursor, measured, counted⟩ :=
    Buffer.exists_place_measured present (Nat.le_refl length)
  have atEnd : place.right = [] := List.eq_nil_of_length_eq_zero (by omega)
  have none : place.after = [] := List.eq_nil_of_length_eq_zero (by omega)
  have stands := at_place text
  rw [← cursor]
  exact ⟨stands.atTextEnd_iff.mpr (place.back_eq_nil atEnd none),
    stands.right?_of_end atEnd none⟩

/-- A position is the last one or has a next one. -/
theorem exists_next {cursor : Cursor} (member : cursor ∈ editor.buffer.positions) :
    { editor with cursor }.AtTextEnd ∨ ∃ next, editor.Follows cursor next := by
  obtain ⟨length, present, bound⟩ := Buffer.mem_positions.mp member
  obtain ⟨line, column⟩ := cursor
  have inside := Buffer.lt_lineCount present
  dsimp only at present bound inside
  by_cases within : column < length
  · exact Or.inr ⟨_, follows_inside present within⟩
  · obtain rfl : column = length := by omega
    by_cases more : line + 1 < editor.buffer.lineCount
    · exact Or.inr ⟨_, follows_across present more⟩
    · exact Or.inl (stays_at_end present (by omega)).1

/-- A position is the first one or has one before it. -/
theorem exists_previous {cursor : Cursor} (member : cursor ∈ editor.buffer.positions) :
    cursor = ⟨0, 0⟩ ∨ ∃ previous, editor.Follows previous cursor := by
  obtain ⟨length, present, bound⟩ := Buffer.mem_positions.mp member
  obtain ⟨line, column⟩ := cursor
  have inside := Buffer.lt_lineCount present
  dsimp only at present bound inside
  cases column with
  | succ column => exact Or.inr ⟨_, follows_inside present (by omega)⟩
  | zero =>
      cases line with
      | zero => exact Or.inl rfl
      | succ line =>
          obtain ⟨above, measured⟩ :=
            Buffer.exists_lineLength? (show line < editor.buffer.lineCount by omega)
          exact Or.inr ⟨_, follows_across measured inside⟩

/-- Each position but the last is followed by the one behind it in the list. -/
theorem isChain_positions (editor : Editor) :
    editor.buffer.positions.IsChain editor.Follows := by
  have nonempty : [] ∉ editor.buffer.lineLengths.mapIdx Buffer.linePositions := by
    intro member
    obtain ⟨line, inside, empty⟩ := List.mem_mapIdx.mp member
    exact Buffer.linePositions_ne_nil _ _ empty
  have measured : ∀ line (inside : line < editor.buffer.lineLengths.length),
      editor.buffer.lineLength? line = some editor.buffer.lineLengths[line] := by
    intro line inside
    rw [← Buffer.getElem?_lineLengths, List.getElem?_eq_getElem inside]
  rw [Buffer.positions, List.isChain_flatten nonempty]
  constructor
  · intro onLine member
    obtain ⟨line, inside, rfl⟩ := List.mem_mapIdx.mp member
    rw [Buffer.linePositions, List.isChain_map, List.isChain_range_succ]
    intro column within
    exact follows_inside (measured line inside) within
  · rw [List.isChain_iff_getElem]
    intro line inside last ends first begins
    rw [List.length_mapIdx] at inside
    rw [List.getElem_mapIdx, Buffer.getLast?_linePositions] at ends
    rw [List.getElem_mapIdx, Buffer.head?_linePositions] at begins
    obtain rfl := Option.mem_some_iff.mp ends
    obtain rfl := Option.mem_some_iff.mp begins
    rw [Buffer.length_lineLengths] at inside
    exact follows_across (measured line _) inside

theorem times?_of_fixed {step : Editor → Option Editor} (fixed : step editor = some editor)
    (count : Nat) : editor.times? step count = some editor := by
  induction count with
  | zero => rfl
  | succ count ih => rw [times?_succ, fixed, Option.bind_some, ih]

/-- Going right so many times leads along positions that follow each other, as far as they go. -/
theorem times?_right?_of_isChain {first : Cursor} {rest : List Cursor}
    (chain : (first :: rest).IsChain editor.Follows)
    (stays : ∀ last, (first :: rest).getLast? = some last →
      { editor with cursor := last }.right? = some { editor with cursor := last })
    (count : Nat) :
    ∃ cursor, (first :: rest)[min count rest.length]? = some cursor ∧
      { editor with cursor := first }.times? right? count = some { editor with cursor } := by
  induction rest generalizing first count with
  | nil => exact ⟨first, by simp, times?_of_fixed (stays first rfl) count⟩
  | cons next rest ih =>
      obtain ⟨follows, later⟩ := List.isChain_cons_cons.mp chain
      cases count with
      | zero => exact ⟨first, by simp, rfl⟩
      | succ count =>
          rw [List.getLast?_cons_cons] at stays
          obtain ⟨cursor, found, reached⟩ := ih later stays count
          refine ⟨cursor, ?_, ?_⟩
          · rw [List.length_cons, Nat.add_min_add_right, List.getElem?_cons_succ, found]
          · rw [times?_succ, follows.right, Option.bind_some, reached]

/-- The list of positions holds exactly the cursors in range, each with more characters before it
than the one in front of it. From the start of the text, so many steps to the right lead to the
position of that number in the list; from the last one on, which is the end of the text, they lead
nowhere else. Going right and then left is to stay, but at the end of the text, and so is going left
and then right, but at its start. -/
theorem right_visits_positions (editor : Editor) :
    (∀ cursor, cursor ∈ editor.buffer.positions ↔ { editor with cursor }.InRange) ∧
    (editor.buffer.positions.map editor.buffer.index).Pairwise (· < ·) ∧
    (∀ count, ∃ cursor,
      editor.buffer.positions[min count (editor.buffer.positions.length - 1)]? = some cursor ∧
      { editor with cursor := ⟨0, 0⟩ }.times? right? count = some { editor with cursor }) ∧
    (∃ last, editor.buffer.positions.getLast? = some last ∧
      { editor with cursor := last }.AtTextEnd) ∧
    ∀ cursor, { editor with cursor }.InRange →
      (¬ { editor with cursor }.AtTextEnd →
        { editor with cursor }.right?.bind left? = some { editor with cursor }) ∧
      (cursor ≠ ⟨0, 0⟩ →
        { editor with cursor }.left?.bind right? = some { editor with cursor }) := by
  have chain := editor.isChain_positions
  have member : ∀ cursor, cursor ∈ editor.buffer.positions ↔ { editor with cursor }.InRange := by
    intro cursor
    rw [Buffer.mem_positions]
    constructor
    · rintro ⟨length, present, bound⟩
      exact ⟨Buffer.lt_lineCount present, length, present, bound⟩
    · intro inRange
      exact inRange.column
  obtain ⟨line, length, last, present, onLast⟩ := editor.buffer.getLast?_positions
  obtain ⟨atEnd, stays⟩ := stays_at_end present onLast
  refine ⟨member, ?_, ?_, ⟨_, last, atEnd⟩, ?_⟩
  · have ordered : (editor.buffer.positions.map editor.buffer.index).IsChain (· < ·) := by
      rw [List.isChain_map]
      exact chain.imp fun _ _ follows => follows.later
    exact ordered.pairwise
  · intro count
    have start := editor.buffer.head?_positions
    obtain ⟨rest, shape⟩ := List.head?_eq_some_iff.mp start
    rw [shape] at chain last ⊢
    apply times?_right?_of_isChain chain
    intro other found
    obtain rfl := Option.some.inj (last.symm.trans found)
    exact stays
  · intro cursor inRange
    rw [← member] at inRange
    constructor
    · intro inside
      obtain ⟨next, follows⟩ := (exists_next inRange).resolve_left inside
      rw [follows.right, Option.bind_some, follows.left]
    · intro notFirst
      obtain ⟨previous, follows⟩ := (exists_previous inRange).resolve_left notFirst
      rw [follows.left, Option.bind_some, follows.right]

/-- Three lines, the middle one empty between a lone carriage return and a pair. -/
example : (Buffer.ofText ['a', '\r', '\r', '\n']).positions =
    [⟨0, 0⟩, ⟨0, 1⟩, ⟨1, 0⟩, ⟨2, 0⟩] := by
  decide

end Editor

end Dabara
