import Dabara.Proofs.Paired

set_option autoImplicit false

namespace Dabara

namespace Editor

structure At (editor : Editor) (place : Place) : Prop where
  text : editor.buffer.text = place.text
  line : editor.cursor.line = place.before.length
  column : editor.cursor.column = place.left.length

/-- An operation succeeds, and the flat machine has come to the same place. -/
def Reaches (result : Option Editor) (tabWidth : Nat) (flat : FlatText) : Prop :=
  ∃ editor place, result = some editor ∧ editor.At place ∧ place.flat = flat ∧
    editor.tabWidth = tabWidth

section Moves

variable {editor : Editor} {place : Place}

theorem At.moveTo (stands : editor.At place) {next : Place} (text : next.text = place.text) :
    (editor.moveTo next.before.length next.left.length).At next where
  text := by
    rw [text]
    exact stands.text
  line := rfl
  column := rfl

theorem At.reaches_moveTo (stands : editor.At place) {next : Place} (text : next.text = place.text)
    {line column : Nat} (sameLine : line = next.before.length)
    (sameColumn : column = next.left.length) :
    Reaches (some (editor.moveTo line column)) editor.tabWidth next.flat := by
  subst sameLine sameColumn
  exact ⟨_, next, rfl, stands.moveTo text, rfl, rfl⟩

theorem At.reaches_self (stands : editor.At place) :
    Reaches (some editor) editor.tabWidth place.flat :=
  ⟨editor, place, rfl, stands, rfl, rfl⟩

theorem At.lineLength? (stands : editor.At place) :
    editor.buffer.lineLength? editor.cursor.line =
      some (place.left.length + place.right.length) := by
  rw [stands.line]
  exact Buffer.lineLength?_of_place stands.text

/-- The length of the line above, measured from the line below it. -/
theorem At.lineLength?_above (stands : editor.At place) {above : Place}
    (isAbove : above.IsAbove place) :
    editor.cursor.line - 1 = above.before.length ∧
      editor.buffer.lineLength? (editor.cursor.line - 1) =
        some (above.left.length + above.right.length) := by
  have line : editor.cursor.line - 1 = above.before.length := by
    rw [stands.line, isAbove.before, List.length_append, List.length_singleton,
      Nat.add_sub_cancel]
  refine ⟨line, ?_⟩
  rw [line]
  exact Buffer.lineLength?_of_place (by rw [stands.text, isAbove.text])

theorem At.lineLength?_below (stands : editor.At place) {below : Place}
    (isAbove : place.IsAbove below) :
    editor.cursor.line + 1 = below.before.length ∧
      editor.buffer.lineLength? (editor.cursor.line + 1) =
        some (below.left.length + below.right.length) := by
  have line : editor.cursor.line + 1 = below.before.length := by
    rw [stands.line, isAbove.before, List.length_append]
    rfl
  refine ⟨line, ?_⟩
  rw [line]
  exact Buffer.lineLength?_of_place (by rw [stands.text, isAbove.text])

theorem At.left?_of_concat (stands : editor.At place) {left : Text} {c : Char}
    (shape : place.left = left ++ [c]) :
    editor.left? = some (editor.moveTo editor.cursor.line left.length) := by
  have column : editor.cursor.column = left.length + 1 := by
    rw [stands.column, shape, List.length_append, List.length_singleton]
  rw [Editor.left?, if_pos (by omega), column, Nat.add_sub_cancel]

theorem At.left?_of_isAbove (stands : editor.At place) {above : Place}
    (isAbove : above.IsAbove place) (atEnd : above.right = []) (atStart : place.left = []) :
    editor.left? = some (editor.moveTo (editor.cursor.line - 1) above.left.length) := by
  obtain ⟨_, length⟩ := stands.lineLength?_above isAbove
  have column : ¬ 0 < editor.cursor.column := by
    rw [stands.column, atStart, List.length_nil]
    omega
  have notFirst : 0 < editor.cursor.line := by
    rw [stands.line, isAbove.before, List.length_append, List.length_singleton]
    omega
  rw [atEnd, List.length_nil, Nat.add_zero] at length
  rw [Editor.left?, if_neg column, if_pos notFirst, length, Option.map_some]

theorem At.left?_of_start (stands : editor.At place) (atStart : place.left = [])
    (first : place.before = []) : editor.left? = some editor := by
  have column : ¬ 0 < editor.cursor.column := by
    rw [stands.column, atStart, List.length_nil]
    omega
  have line : ¬ 0 < editor.cursor.line := by
    rw [stands.line, first, List.length_nil]
    omega
  rw [Editor.left?, if_neg column, if_neg line]

theorem left?_reaches (stands : editor.At place) :
    Reaches editor.left? editor.tabWidth place.flat.left := by
  rcases place.before_cases with
    ⟨left, c, shape⟩ | ⟨atStart, above, isAbove, atEnd⟩ | ⟨atStart, first⟩
  · let next := place.resplit left (c :: place.right) (by simp [shape])
    have front : place.front = next.front ++ [c] := by
      simp [Place.front, next, Place.resplit, shape]
    have back : next.back = [c] ++ place.back := by
      simp [Place.back, next, Place.resplit]
    rw [stands.left?_of_concat shape, Place.left_flat front back (List.cons_ne_nil c [])
      (Place.unitBefore_flat_of_concat shape)]
    exact stands.reaches_moveTo (place.text_resplit _) stands.line rfl
  · obtain ⟨line, _⟩ := stands.lineLength?_above isAbove
    rw [stands.left?_of_isAbove isAbove atEnd atStart,
      Place.left_flat_of_isAbove isAbove atEnd atStart]
    exact stands.reaches_moveTo isAbove.text line rfl
  · have point : place.flat.point = 0 := by simp [Place.flat, Place.point, first, atStart]
    rw [stands.left?_of_start atStart first, FlatText.left, if_pos point]
    exact stands.reaches_self

theorem At.right?_of_cons (stands : editor.At place) {right : Text} {c : Char}
    (shape : place.right = c :: right) :
    editor.right? = some (editor.moveTo editor.cursor.line (editor.cursor.column + 1)) := by
  have inside : editor.cursor.column < place.left.length + place.right.length := by
    rw [stands.column, shape, List.length_cons]
    omega
  rw [Editor.right?, stands.lineLength?, Option.map_some, if_pos inside]

theorem At.right?_of_isAbove (stands : editor.At place) {below : Place}
    (isAbove : place.IsAbove below) (atEnd : place.right = []) :
    editor.right? = some (editor.moveTo (editor.cursor.line + 1) 0) := by
  have outside : ¬ editor.cursor.column < place.left.length + place.right.length := by
    rw [stands.column, atEnd, List.length_nil]
    omega
  have notLast : editor.cursor.line + 1 < editor.buffer.lineCount := by
    rw [stands.line, Buffer.lineCount_of_place stands.text, isAbove.after, List.length_cons]
    omega
  rw [Editor.right?, stands.lineLength?, Option.map_some, if_neg outside, if_pos notLast]

theorem At.right?_of_end (stands : editor.At place) (atEnd : place.right = [])
    (last : place.after = []) : editor.right? = some editor := by
  have outside : ¬ editor.cursor.column < place.left.length + place.right.length := by
    rw [stands.column, atEnd, List.length_nil]
    omega
  have onLast : ¬ editor.cursor.line + 1 < editor.buffer.lineCount := by
    rw [stands.line, Buffer.lineCount_of_place stands.text, last, List.length_nil]
    omega
  rw [Editor.right?, stands.lineLength?, Option.map_some, if_neg outside, if_neg onLast]

theorem right?_reaches (stands : editor.At place) :
    Reaches editor.right? editor.tabWidth place.flat.right := by
  rcases place.behind_cases with
    ⟨c, right, shape⟩ | ⟨atEnd, below, isAbove, atStart⟩ | ⟨atEnd, last⟩
  · let next := place.resplit (place.left ++ [c]) right (by simp [shape])
    have front : next.front = place.front ++ [c] := by
      simp [Place.front, next, Place.resplit]
    have back : place.back = [c] ++ next.back := by
      simp [Place.back, next, Place.resplit, shape]
    rw [stands.right?_of_cons shape, Place.right_flat front back (List.cons_ne_nil c [])
      (Place.unitBehind_flat_of_cons shape)]
    refine stands.reaches_moveTo (place.text_resplit _) stands.line ?_
    rw [stands.column]
    simp [Place.resplit]
  · obtain ⟨line, _⟩ := stands.lineLength?_below isAbove
    rw [stands.right?_of_isAbove isAbove atEnd, Place.right_flat_of_isAbove isAbove atEnd atStart]
    exact stands.reaches_moveTo isAbove.text.symm line (by simp [atStart])
  · have behind : place.flat.behind = [] := place.behind_flat.trans (place.back_eq_nil atEnd last)
    rw [stands.right?_of_end atEnd last, FlatText.right, if_pos behind]
    exact stands.reaches_self

/-- Going to the line of a place of the same text, as far right as that line reaches. -/
theorem toLine?_reaches (stands : editor.At place) {near target : Place}
    (text : near.text = place.text) (sameText : target.text = near.text)
    (sameBefore : target.before = near.before)
    (column : target.left.length = min place.left.length (near.left.length + near.right.length)) :
    Reaches (editor.toLine? near.before.length) editor.tabWidth target.flat := by
  have length := Buffer.lineLength?_of_place (stands.text.trans text.symm)
  rw [toLine?, length, Option.map_some]
  refine stands.reaches_moveTo (sameText.trans text) (by rw [sameBefore]) ?_
  rw [stands.column, column]

theorem up?_reaches (stands : editor.At place) :
    Reaches editor.up? editor.tabWidth place.flat.up := by
  by_cases first : place.before = []
  · have line : editor.cursor.line - 1 = place.before.length := by
      rw [stands.line, first]
      rfl
    rw [up?, line, Place.up_flat_of_first first]
    exact toLine?_reaches stands rfl rfl rfl (Nat.min_eq_left (Nat.le_add_right _ _)).symm
  · obtain ⟨above, isAbove, atEnd⟩ := place.exists_above first
    obtain ⟨line, _⟩ := stands.lineLength?_above isAbove
    obtain ⟨target, text, before, column⟩ := above.exists_column
      (Nat.min_le_right place.left.length (above.left.length + above.right.length))
    have narrow : target.left.length = min place.left.length above.left.length := by
      simpa [atEnd] using column
    rw [up?, line, Place.up_flat isAbove atEnd text before narrow]
    exact toLine?_reaches stands isAbove.text text before column

theorem down?_reaches (stands : editor.At place) :
    Reaches editor.down? editor.tabWidth place.flat.down := by
  have count : editor.buffer.lineCount = place.before.length + 1 + place.after.length :=
    Buffer.lineCount_of_place stands.text
  have numbered : ¬ editor.atLastNumber = true := by
    have inside : ¬ editor.buffer.lineCount ≤ editor.cursor.line := by
      rw [stands.line, count]
      omega
    simp [atLastNumber, inside]
  rw [down?, if_neg numbered]
  by_cases last : place.after = []
  · have line : min (editor.cursor.line + 1) (editor.buffer.lineCount - 1) =
        place.before.length := by
      rw [stands.line, count, last, List.length_nil]
      omega
    rw [line, Place.down_flat_of_last last]
    exact toLine?_reaches stands rfl rfl rfl (Nat.min_eq_left (Nat.le_add_right _ _)).symm
  · obtain ⟨below, isAbove, atStart⟩ := place.exists_below last
    have line : min (editor.cursor.line + 1) (editor.buffer.lineCount - 1) =
        below.before.length := by
      have positive := List.length_pos_iff.mpr last
      rw [stands.line, count, isAbove.before, List.length_append, List.length_singleton]
      omega
    obtain ⟨target, text, before, column⟩ := below.exists_column
      (Nat.min_le_right place.left.length (below.left.length + below.right.length))
    have narrow : target.left.length = min place.left.length below.right.length := by
      simpa [atStart] using column
    rw [line, Place.down_flat isAbove atStart text before narrow]
    exact toLine?_reaches stands isAbove.text.symm text before column

theorem lineStart_reaches (stands : editor.At place) :
    Reaches (some editor.lineStart) editor.tabWidth place.flat.home := by
  rw [Place.home_flat]
  exact stands.reaches_moveTo (place.text_resplit _) stands.line rfl

theorem lineEnd?_reaches (stands : editor.At place) :
    Reaches editor.lineEnd? editor.tabWidth place.flat.lineEnd := by
  rw [lineEnd?, stands.lineLength?, Option.map_some, Place.lineEnd_flat]
  refine stands.reaches_moveTo (place.text_resplit _) stands.line ?_
  simp [Place.resplit]

end Moves

section Changes

variable {editor : Editor} {place : Place}

/-- An insertion leads to the place behind what was inserted. -/
theorem insert?_reaches (stands : editor.At place) {next : Place} {added : Text}
    (front : next.front = place.front ++ added) (back : next.back = place.back) {line column : Nat}
    (sameLine : line = next.before.length) (sameColumn : column = next.left.length) :
    Reaches (editor.insert? added line column) editor.tabWidth (place.flat.insert added) := by
  rw [insert?, stands.line, stands.column, Buffer.insert?_of_place stands.text, Option.map_some,
    Place.insert_flat front back]
  refine ⟨_, next, rfl, ⟨?_, sameLine, sameColumn⟩, rfl, rfl⟩
  rw [next.text_eq, front, back]
  rfl

theorem insert?_reaches_of_unbroken (stands : editor.At place) (paired : Paired place.text)
    {added : Text} (unbroken : Unbroken added) {column : Nat}
    (sameColumn : column = editor.cursor.column + added.length) :
    Reaches (editor.insert? added editor.cursor.line column) editor.tabWidth
        (place.flat.insert added) ∧
      Paired (place.flat.insert added).text := by
  have settled := Place.settled_before paired
  have whole : Unbroken (place.left ++ added ++ place.right) := by
    simp [unbroken, place.unbroken_left, place.unbroken_right]
  let next := Place.splice place place settled (place.left ++ added) place.right whole
  have front : next.front = place.front ++ added := by
    simp [Place.front, next, Place.splice]
  have back : next.back = place.back := rfl
  have column : column = next.left.length := by
    rw [sameColumn, stands.column, ← List.length_append]
    rfl
  refine ⟨insert?_reaches stands front back stands.line column, ?_⟩
  rw [Place.insert_flat front back]
  exact Place.paired_splice settled whole paired paired

theorem insertChar?_reaches (stands : editor.At place) (paired : Paired place.text) {c : Char}
    (inside : isLineBreak c = false) :
    Reaches (editor.insertChar? c) editor.tabWidth (place.flat.insert [c]) ∧
      Paired (place.flat.insert [c]).text :=
  insert?_reaches_of_unbroken stands paired (by simp [inside]) rfl

theorem insertTab?_reaches (stands : editor.At place) (paired : Paired place.text)
    (narrow : editor.tabWidth < textLimit) :
    Reaches editor.insertTab? editor.tabWidth
        (place.flat.insert (List.replicate editor.tabWidth ' ')) ∧
      Paired (place.flat.insert (List.replicate editor.tabWidth ' ')).text := by
  rw [insertTab?, if_neg (Nat.not_le.mpr narrow)]
  exact insert?_reaches_of_unbroken stands paired (unbroken_spaces _)
    (by rw [List.length_replicate])

theorem insertNewline?_reaches (stands : editor.At place) (paired : Paired place.text) :
    Reaches editor.insertNewline? editor.tabWidth (place.flat.insert ['\n']) ∧
      Paired (place.flat.insert ['\n']).text := by
  have settled := Place.settled_before paired
  let next := place.broken settled
  have front : next.front = place.front ++ ['\n'] := by
    simp [Place.front, next, Place.broken]
  have back : next.back = place.back := rfl
  have line : editor.cursor.line + 1 = next.before.length := by
    rw [stands.line]
    simp [next, Place.broken]
  refine ⟨insert?_reaches stands front back line rfl, ?_⟩
  rw [Place.insert_flat front back]
  exact Place.paired_broken settled paired

/-- The column at which the line above ends, when there is one. -/
theorem At.joinColumn? (stands : editor.At place) :
    ∃ length, editor.joinColumn? = some length ∧
      ∀ above : Place, above.IsAbove place → above.right = [] → length = above.left.length := by
  by_cases first : place.before = []
  · have line : ¬ 0 < editor.cursor.line := by
      rw [stands.line, first]
      exact Nat.lt_irrefl 0
    refine ⟨0, by rw [Editor.joinColumn?, if_neg line], ?_⟩
    intro above isAbove _
    rw [isAbove.before] at first
    exact absurd first (by simp)
  · obtain ⟨above, isAbove, atEnd⟩ := place.exists_above first
    obtain ⟨line, length⟩ := stands.lineLength?_above isAbove
    have notFirst : 0 < editor.cursor.line := by
      rw [stands.line]
      exact List.length_pos_iff.mpr first
    refine ⟨_, by rw [Editor.joinColumn?, if_pos notFirst, length], ?_⟩
    intro other otherAbove otherEnd
    obtain ⟨_, otherLength⟩ := stands.lineLength?_above otherAbove
    rw [length, Option.some.injEq, otherEnd, List.length_nil, Nat.add_zero] at otherLength
    exact otherLength

theorem At.cursor (stands : editor.At place) : editor.cursor = place.cursor := by
  rw [Place.cursor, ← stands.line, ← stands.column]

/-- A surface whose text has been changed, with the cursor where the change leaves it. -/
def edited (editor : Editor) (text : Text) (cursor : Cursor) : Editor :=
  { editor with buffer := { editor.buffer with text, dirty := true }, cursor }.refresh

theorem At.deleteBackward?_of_concat (stands : editor.At place) {left : Text} {c : Char}
    (shape : place.left = left ++ [c]) :
    editor.deleteBackward? = some (editor.edited (place.before.flatten ++ left ++ place.back)
      ⟨place.before.length, left.length⟩) := by
  obtain ⟨length, join, _⟩ := stands.joinColumn?
  have removed := Buffer.backspace?_of_concat stands.text shape
  rw [← stands.line, ← stands.column] at removed
  have column : editor.cursor.column = left.length + 1 := by
    rw [stands.column, shape, List.length_append, List.length_singleton]
  rw [Editor.deleteBackward?, join, removed]
  dsimp only
  rw [if_pos (by omega), column, Nat.add_sub_cancel, stands.line]
  rfl

theorem At.deleteBackward?_of_isAbove (stands : editor.At place) {above : Place}
    (isAbove : above.IsAbove place) (atEnd : above.right = []) (atStart : place.left = []) :
    editor.deleteBackward? = some (editor.edited (above.front ++ place.back) above.cursor) := by
  obtain ⟨length, join, joinAbove⟩ := stands.joinColumn?
  obtain ⟨line, _⟩ := stands.lineLength?_above isAbove
  have removed := Buffer.backspace?_of_isAbove stands.text isAbove atEnd atStart
  rw [← stands.line, ← stands.column] at removed
  have column : ¬ 0 < editor.cursor.column := by
    rw [stands.column, atStart]
    exact Nat.lt_irrefl 0
  rw [Editor.deleteBackward?, join, removed]
  dsimp only
  rw [if_neg column, line, joinAbove above isAbove atEnd]
  rfl

theorem At.deleteBackward?_of_start (stands : editor.At place) (atStart : place.left = [])
    (first : place.before = []) : editor.deleteBackward? = some editor := by
  obtain ⟨length, join, _⟩ := stands.joinColumn?
  have point : place.point = 0 := by
    simp [Place.point, first, atStart]
  have kept := Buffer.backspace?_of_start stands.text point
  rw [← stands.line, ← stands.column] at kept
  rw [Editor.deleteBackward?, join, kept]

theorem At.deleteForward?_of_cons (stands : editor.At place) {right : Text} {c : Char}
    (shape : place.right = c :: right) :
    editor.deleteForward? = some (editor.edited
      (place.front ++ (right ++ place.ending ++ place.after.flatten)) place.cursor) := by
  rw [Editor.deleteForward?, stands.line, stands.column, Buffer.delete?_of_cons stands.text shape,
    Option.map_some, ← stands.cursor]
  rfl

theorem At.deleteForward?_of_isAbove (stands : editor.At place) {below : Place}
    (isAbove : place.IsAbove below) (atEnd : place.right = []) (atStart : below.left = []) :
    editor.deleteForward? = some (editor.edited (place.front ++ below.back) place.cursor) := by
  rw [Editor.deleteForward?, stands.line, stands.column,
    Buffer.delete?_of_isAbove stands.text isAbove atEnd atStart, Option.map_some, ← stands.cursor]
  rfl

theorem At.deleteForward?_of_end (stands : editor.At place) (atEnd : place.right = [])
    (last : place.after = []) : editor.deleteForward? = some editor.refresh := by
  rw [Editor.deleteForward?, stands.line, stands.column,
    Buffer.delete?_of_end stands.text (place.back_eq_nil atEnd last), Option.map_some]

/-- A change that leads to a place. -/
theorem reaches_edited {text : Text} {cursor : Cursor} {next : Place}
    (sameText : text = next.text) (sameCursor : cursor = next.cursor) :
    Reaches (some (editor.edited text cursor)) editor.tabWidth next.flat := by
  subst sameText sameCursor
  exact ⟨_, next, rfl, ⟨rfl, rfl, rfl⟩, rfl, rfl⟩

theorem deleteBackward?_reaches_inside (stands : editor.At place) (paired : Paired place.text)
    {left : Text} {c : Char} (shape : place.left = left ++ [c]) :
    Reaches editor.deleteBackward? editor.tabWidth place.flat.backspace ∧
      Paired place.flat.backspace.text := by
  have settled := Place.settled_before paired
  have whole : Unbroken (left ++ place.right) := by
    have unbroken := place.unbroken_left
    rw [shape, unbroken_append] at unbroken
    simp [unbroken.1, place.unbroken_right]
  let next := Place.splice place place settled left place.right whole
  have front : place.front = next.front ++ [c] := by
    simp [Place.front, next, Place.splice, shape]
  have back : next.back = place.back := rfl
  rw [stands.deleteBackward?_of_concat shape, Place.backspace_flat front back
    (List.cons_ne_nil c []) (Place.unitBefore_flat_of_concat shape)]
  exact ⟨reaches_edited next.text_eq.symm rfl, Place.paired_splice settled whole paired paired⟩

/-- At the start of a line its text goes behind the text of the line before. -/
theorem deleteBackward?_reaches_join (stands : editor.At place) (paired : Paired place.text)
    {above : Place} (isAbove : above.IsAbove place) (atEnd : above.right = [])
    (atStart : place.left = []) :
    Reaches editor.deleteBackward? editor.tabWidth place.flat.backspace ∧
      Paired place.flat.backspace.text := by
  have abovePaired : Paired above.text := by
    rw [isAbove.text]
    exact paired
  have settled := Place.settled_before abovePaired
  have whole : Unbroken (above.left ++ place.right) := by
    simp [above.unbroken_left, place.unbroken_right]
  let next := Place.splice above place settled above.left place.right whole
  have front : place.front = next.front ++ above.ending := isAbove.front atEnd atStart
  have back : next.back = place.back := rfl
  rw [stands.deleteBackward?_of_isAbove isAbove atEnd atStart, Place.backspace_flat front back
    isAbove.isBreak.ne_nil (Place.unitBefore_flat_of_isAbove isAbove atStart)]
  exact ⟨reaches_edited next.text_eq.symm rfl, Place.paired_splice settled whole abovePaired paired⟩

theorem deleteBackward?_reaches (stands : editor.At place) (paired : Paired place.text) :
    Reaches editor.deleteBackward? editor.tabWidth place.flat.backspace ∧
      Paired place.flat.backspace.text := by
  rcases place.before_cases with
    ⟨left, c, shape⟩ | ⟨atStart, above, isAbove, atEnd⟩ | ⟨atStart, first⟩
  · exact deleteBackward?_reaches_inside stands paired shape
  · exact deleteBackward?_reaches_join stands paired isAbove atEnd atStart
  · have point : place.point = 0 := by
      simp [Place.point, first, atStart]
    have stays : place.flat.backspace = place.flat := if_pos point
    rw [stands.deleteBackward?_of_start atStart first, stays]
    exact ⟨stands.reaches_self, paired⟩

theorem deleteForward?_reaches_inside (stands : editor.At place) (paired : Paired place.text)
    {right : Text} {c : Char} (shape : place.right = c :: right) :
    Reaches editor.deleteForward? editor.tabWidth place.flat.delete ∧
      Paired place.flat.delete.text := by
  have settled := Place.settled_before paired
  have whole : Unbroken (place.left ++ right) := by
    have unbroken := place.unbroken_right
    rw [shape, unbroken_cons] at unbroken
    simp [unbroken.2, place.unbroken_left]
  let next := Place.splice place place settled place.left right whole
  have front : next.front = place.front := rfl
  have back : place.back = [c] ++ next.back := by
    simp [Place.back, next, Place.splice, shape]
  rw [stands.deleteForward?_of_cons shape, Place.delete_flat front back (List.cons_ne_nil c [])
    (Place.unitBehind_flat_of_cons shape)]
  exact ⟨reaches_edited next.text_eq.symm rfl, Place.paired_splice settled whole paired paired⟩

/-- At the end of a line the text of the next line comes behind it. -/
theorem deleteForward?_reaches_join (stands : editor.At place) (paired : Paired place.text)
    {below : Place} (isAbove : place.IsAbove below) (atEnd : place.right = [])
    (atStart : below.left = []) :
    Reaches editor.deleteForward? editor.tabWidth place.flat.delete ∧
      Paired place.flat.delete.text := by
  have settled := Place.settled_before paired
  have belowPaired : Paired below.text := by
    rw [← isAbove.text]
    exact paired
  have whole : Unbroken (place.left ++ below.right) := by
    simp [place.unbroken_left, below.unbroken_right]
  let next := Place.splice place below settled place.left below.right whole
  have front : next.front = place.front := rfl
  have back : place.back = place.ending ++ next.back := isAbove.back atEnd atStart
  rw [stands.deleteForward?_of_isAbove isAbove atEnd atStart, Place.delete_flat front back
    isAbove.isBreak.ne_nil (Place.unitBehind_flat_of_isAbove isAbove atEnd)]
  exact ⟨reaches_edited next.text_eq.symm rfl, Place.paired_splice settled whole paired belowPaired⟩

theorem deleteForward?_reaches (stands : editor.At place) (paired : Paired place.text) :
    Reaches editor.deleteForward? editor.tabWidth place.flat.delete ∧
      Paired place.flat.delete.text := by
  rcases place.behind_cases with
    ⟨c, right, shape⟩ | ⟨atEnd, below, isAbove, atStart⟩ | ⟨atEnd, last⟩
  · exact deleteForward?_reaches_inside stands paired shape
  · exact deleteForward?_reaches_join stands paired isAbove atEnd atStart
  · have stays : place.flat.delete = place.flat :=
      if_pos (place.behind_flat.trans (place.back_eq_nil atEnd last))
    have refreshed : editor.refresh.At place := ⟨stands.text, stands.line, stands.column⟩
    rw [stands.deleteForward?_of_end atEnd last, stays]
    exact ⟨refreshed.reaches_self, paired⟩

end Changes

section Events

variable {editor : Editor} {place : Place}

/-- A move leaves the text as it is. -/
theorem Reaches.and_paired {result : Option Editor} {tabWidth : Nat} {flat next : FlatText}
    (reaches : Reaches result tabWidth next) (same : next.text = flat.text)
    (paired : Paired flat.text) : Reaches result tabWidth next ∧ Paired next.text := by
  refine ⟨reaches, ?_⟩
  rw [same]
  exact paired

/-- A key by itself does to the surface what it does to the flat machine, unless it types a break
as a character or a tab too wide to be typed. -/
theorem press?_reaches (stands : editor.At place) (paired : Paired place.text) {key : Key}
    (inside : ∀ c, key = .char c → isLineBreak c = false)
    (narrow : key = .tab → editor.tabWidth < textLimit) :
    Reaches (editor.press? key) editor.tabWidth (place.flat.press editor.tabWidth key) ∧
      Paired (place.flat.press editor.tabWidth key).text := by
  cases key with
  | char c => exact insertChar?_reaches stands paired (inside c rfl)
  | enter => exact insertNewline?_reaches stands paired
  | tab => exact insertTab?_reaches stands paired (narrow rfl)
  | backspace => exact deleteBackward?_reaches stands paired
  | delete => exact deleteForward?_reaches stands paired
  | left => exact (left?_reaches stands).and_paired (FlatText.text_left _) paired
  | right => exact (right?_reaches stands).and_paired (FlatText.text_right _) paired
  | up => exact (up?_reaches stands).and_paired (FlatText.text_up _) paired
  | down => exact (down?_reaches stands).and_paired (FlatText.text_down _) paired
  | home => exact (lineStart_reaches stands).and_paired (FlatText.text_home _) paired
  | lineEnd => exact (lineEnd?_reaches stands).and_paired (FlatText.text_lineEnd _) paired
  | _ => exact ⟨stands.reaches_self, paired⟩

theorem text_of_save {disk written : Disk} {buffer saved : Buffer}
    (success : buffer.save disk = .ok (written, saved)) : saved.text = buffer.text := by
  unfold Buffer.save at success
  grind

/-- Whatever becomes of the file, the control key leaves text, cursor and tabs alone. -/
theorem control_frame (disk : Disk) (editor : Editor) (key : Key) :
    (editor.control disk key).2.buffer.text = editor.buffer.text ∧
      (editor.control disk key).2.cursor = editor.cursor ∧
      (editor.control disk key).2.tabWidth = editor.tabWidth := by
  have saving : (editor.save disk).2.buffer.text = editor.buffer.text ∧
      (editor.save disk).2.cursor = editor.cursor ∧
      (editor.save disk).2.tabWidth = editor.tabWidth := by
    unfold save
    split
    · split
      · next written buffer success => exact ⟨text_of_save success, rfl, rfl⟩
      · exact ⟨rfl, rfl, rfl⟩
    · exact ⟨rfl, rfl, rfl⟩
  unfold control
  split
  · exact ⟨rfl, rfl, rfl⟩
  · exact ⟨rfl, rfl, rfl⟩
  · exact saving
  · exact ⟨rfl, rfl, rfl⟩

/-- The surface shows a flat text with an insertion point: it holds the text, its cursor is inside
the text, and line start and column add up to the point. -/
structure Refines (editor : Editor) (flat : FlatText) : Prop where
  text : editor.buffer.text = flat.text
  line : editor.cursor.line < editor.buffer.lineCount
  column : ∃ length, editor.buffer.lineLength? editor.cursor.line = some length ∧
    editor.cursor.column ≤ length
  point : ∃ start, editor.buffer.lineStart? editor.cursor.line = some start ∧
    start + editor.cursor.column = flat.point
  paired : Paired editor.buffer.text

theorem At.refines (stands : editor.At place) (paired : Paired place.text) :
    editor.Refines place.flat where
  text := stands.text
  line := by
    rw [stands.line, Buffer.lineCount_of_place stands.text]
    omega
  column := by
    refine ⟨_, stands.lineLength?, ?_⟩
    rw [stands.column]
    exact Nat.le_add_right _ _
  point := by
    refine ⟨place.before.flatten.length, ?_, ?_⟩
    · rw [stands.line]
      exact Buffer.lineStart?_of_place stands.text
    · rw [stands.column]
      rfl
  paired := by
    rw [stands.text]
    exact paired

/-- A surface shows a flat text at one of the text's places. -/
theorem Refines.exists_place {flat : FlatText} (refines : editor.Refines flat) :
    ∃ place : Place, editor.At place ∧ place.flat = flat ∧ Paired place.text := by
  obtain ⟨length, present, inside⟩ := refines.column
  obtain ⟨place, text, cursor⟩ := Buffer.exists_place present inside
  have line : editor.cursor.line = place.before.length := (congrArg Cursor.line cursor).symm
  have column : editor.cursor.column = place.left.length := (congrArg Cursor.column cursor).symm
  obtain ⟨start, begins, point⟩ := refines.point
  rw [line, Buffer.lineStart?_of_place text, Option.some.injEq] at begins
  refine ⟨place, ⟨text, line, column⟩, ?_, ?_⟩
  · have same : place.point = flat.point := by
      rw [← point, ← begins, column]
      rfl
    rw [Place.flat, same, ← text, refines.text]
  · rw [← text]
    exact refines.paired

theorem Refines.of_same {other : Editor} {flat : FlatText} (refines : editor.Refines flat)
    (text : other.buffer.text = editor.buffer.text) (cursor : other.cursor = editor.cursor) :
    other.Refines flat := by
  obtain ⟨place, stands, rfl, paired⟩ := refines.exists_place
  have standsToo : other.At place :=
    { text := text.trans stands.text
      line := by rw [cursor, stands.line]
      column := by rw [cursor, stands.column] }
  exact standsToo.refines paired

theorem ofBuffer_refines {buffer : Buffer} (paired : Paired buffer.text) (tabWidth : Nat) :
    (ofBuffer buffer tabWidth).Refines ⟨buffer.text, 0⟩ := by
  have lined := lined_lines buffer.text
  obtain ⟨first, rest, shape⟩ := List.exists_cons_of_ne_nil lined.ne_nil
  have present : buffer.lineLength? 0 = some (first.length - breakLength first) := by
    rw [Buffer.lineLength?, Buffer.line?, shape]
    rfl
  exact
    { text := rfl
      line := List.length_pos_iff.mpr lined.ne_nil
      column := ⟨_, present, Nat.zero_le _⟩
      point := ⟨0, if_pos (Nat.zero_le _), rfl⟩
      paired := paired }

theorem press?_refines {flat : FlatText} (refines : editor.Refines flat) {key : Key}
    (inside : ∀ c, key = .char c → isLineBreak c = false)
    (narrow : key = .tab → editor.tabWidth < textLimit) :
    ∃ next, editor.press? key = some next ∧ next.Refines (flat.press editor.tabWidth key) ∧
      next.tabWidth = editor.tabWidth := by
  obtain ⟨place, stands, rfl, paired⟩ := refines.exists_place
  obtain ⟨reaches, kept⟩ := press?_reaches stands paired inside narrow
  obtain ⟨next, target, success, reached, same, tabs⟩ := reaches
  rw [← same] at kept ⊢
  exact ⟨next, success, reached.refines kept, tabs⟩

/-- One event takes a surface and the flat text that it shows to a surface and the flat text that
this shows. -/
theorem handle?_refines {flat : FlatText} (refines : editor.Refines flat) (disk : Disk)
    {event : Event} (inside : ∀ c, event.typed = some (.char c) → isLineBreak c = false)
    (narrow : event.typed = some .tab → editor.tabWidth < textLimit) :
    ∃ written next, editor.handle? disk event = some (written, next) ∧
      next.Refines (flat.handle editor.tabWidth event) ∧ next.tabWidth = editor.tabWidth := by
  cases event with
  | key event =>
      by_cases released : event.action = .released
      · have typed : (Event.key event).typed = none := if_pos (Or.inl released)
        rw [handle?, if_pos released, FlatText.handle, typed]
        exact ⟨disk, editor, rfl, refines, rfl⟩
      let quiet := { editor with message := none }
      by_cases control : event.modifiers.control = true
      · have typed : (Event.key event).typed = none := if_pos (Or.inr control)
        obtain ⟨text, cursor, tabs⟩ := control_frame disk quiet event.key
        rw [handle?, if_neg released, FlatText.handle, typed]
        dsimp only
        rw [if_pos control]
        exact ⟨_, _, rfl, refines.of_same text cursor, tabs⟩
      · have typed : (Event.key event).typed = some event.key :=
          if_neg (not_or.mpr ⟨released, control⟩)
        have quietRefines : quiet.Refines flat := refines.of_same rfl rfl
        obtain ⟨next, success, reached, tabs⟩ := press?_refines quietRefines
          (fun c shape => inside c (typed.trans (congrArg some shape)))
          (fun shape => narrow (typed.trans (congrArg some shape)))
        rw [handle?, if_neg released, FlatText.handle, typed]
        dsimp only
        rw [if_neg control, success]
        exact ⟨disk, next, rfl, reached, tabs⟩
  | _ => exact ⟨disk, editor, rfl, refines, rfl⟩

def handleAll? (disk : Disk) (editor : Editor) : List Event → Option (Disk × Editor)
  | [] => some (disk, editor)
  | event :: rest =>
      match editor.handle? disk event with
      | some (written, next) => next.handleAll? written rest
      | none => none

/-- No sequence of events takes the surface off the flat text that it shows. -/
theorem handleAll?_keeps_refines {flat : FlatText} (refines : editor.Refines flat) (disk : Disk)
    {events : List Event}
    (inside : ∀ event ∈ events, ∀ c, event.typed = some (.char c) → isLineBreak c = false)
    (narrow : ∀ event ∈ events, event.typed = some .tab → editor.tabWidth < textLimit) :
    ∃ written next, editor.handleAll? disk events = some (written, next) ∧
      next.Refines (flat.handleAll editor.tabWidth events) := by
  induction events generalizing editor flat disk with
  | nil => exact ⟨disk, editor, rfl, refines⟩
  | cons event rest ih =>
      obtain ⟨insideFirst, insideRest⟩ := List.forall_mem_cons.mp inside
      obtain ⟨narrowFirst, narrowRest⟩ := List.forall_mem_cons.mp narrow
      obtain ⟨written, next, success, reached, tabs⟩ :=
        handle?_refines refines disk insideFirst narrowFirst
      rw [← tabs] at narrowRest reached ⊢
      rw [handleAll?, success, FlatText.handleAll, List.foldl_cons]
      exact ih reached written insideRest narrowRest

/-- A surface that begins at the start of a text without a lone carriage return shows, after every
step, what the flat machine has come to. Nothing typed as a character may be a break, and where
tabs are too wide for a text none may be typed. -/
theorem ofBuffer_refines_always (disk : Disk) {buffer : Buffer} (paired : Paired buffer.text)
    (tabWidth : Nat) {events : List Event}
    (inside : ∀ event ∈ events, ∀ c, event.typed = some (.char c) → isLineBreak c = false)
    (narrow : ∀ event ∈ events, event.typed = some .tab → tabWidth < textLimit)
    {done : List Event} (step : done <+: events) :
    ∃ written editor, (ofBuffer buffer tabWidth).handleAll? disk done = some (written, editor) ∧
      editor.Refines (FlatText.handleAll ⟨buffer.text, 0⟩ tabWidth done) := by
  apply handleAll?_keeps_refines (ofBuffer_refines paired tabWidth)
  · intro event member
    exact inside event (step.subset member)
  · intro event member
    exact narrow event (step.subset member)

/-- Going down over a pair, taking it out and typing a tab. -/
theorem ofBuffer_refines_always_pair :
    Paired ['a', '\r', '\n', 'b'] ∧
      ∃ written editor,
        (ofBuffer (Buffer.ofText ['a', '\r', '\n', 'b']) 2).handleAll? Disk.empty
            [.press .down, .press .backspace, .press .tab] = some (written, editor) ∧
          editor.Refines (FlatText.handleAll ⟨['a', '\r', '\n', 'b'], 0⟩ 2
            [.press .down, .press .backspace, .press .tab]) := by
  have paired : Paired ['a', '\r', '\n', 'b'] := by simp [Paired]
  refine ⟨paired, ?_⟩
  apply ofBuffer_refines_always Disk.empty paired 2 _ _ (List.prefix_refl _)
  · simp [Event.press, Event.typed, Modifiers.none]
  · simp [textLimit]

/-- Tabs of any width at all are not typed. -/
theorem not_ofBuffer_refines_always_wide :
    ¬ ∀ (disk : Disk) (buffer : Buffer) (tabWidth : Nat) (events : List Event),
      Paired buffer.text →
      (∀ event ∈ events, ∀ c, event.typed = some (.char c) → isLineBreak c = false) →
      ∃ written editor, (ofBuffer buffer tabWidth).handleAll? disk events = some (written, editor) ∧
        editor.Refines (FlatText.handleAll ⟨buffer.text, 0⟩ tabWidth events) := by
  intro always
  obtain ⟨written, editor, success, _⟩ := always Disk.empty Buffer.empty 9223372036854775808
    [.press .tab] trivial (by simp [Event.press, Event.typed, Modifiers.none])
  have fails : (ofBuffer Buffer.empty 9223372036854775808).handleAll? Disk.empty [.press .tab] =
      none := rfl
  rw [fails] at success
  cases success

end Events

end Editor

end Dabara
