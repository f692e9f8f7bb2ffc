import Dabara.Editor
import Dabara.Proofs.Lines

set_option autoImplicit false

namespace Dabara

/-- How a line goes on behind its text: not at all, or with a break and more lines. -/
inductive Closes : Text → List Text → Prop
  | last : Closes [] []
  | more {ending : Text} {after : List Text} (isBreak : IsBreak ending)
      (apart : Apart ending after.flatten) (later : Lined after) : Closes ending after

theorem Closes.lined {body ending : Text} {after : List Text} (closes : Closes ending after)
    (unbroken : Unbroken body) : Lined ((body ++ ending) :: after) := by
  cases closes with
  | last => exact .last (by simpa using unbroken)
  | more isBreak apart later =>
      refine .cons ⟨body, ending, rfl, unbroken, isBreak⟩ ?_ later
      intro cut
      obtain ⟨last, first⟩ := cut
      refine apart ⟨?_, first⟩
      simpa [isBreak.ne_nil] using last

theorem Lined.closes {line : Text} {after : List Text} (lined : Lined (line :: after)) :
    ∃ body ending, line = body ++ ending ∧ Unbroken body ∧ Closes ending after := by
  cases lined with
  | last unbroken => exact ⟨line, [], by simp, unbroken, .last⟩
  | cons ended apart later =>
      obtain ⟨body, ending, rfl, unbroken, isBreak⟩ := ended
      refine ⟨body, ending, rfl, unbroken, .more isBreak ?_ later⟩
      intro cut
      obtain ⟨last, first⟩ := cut
      refine apart ⟨?_, first⟩
      rw [List.getLast?_append, last, Option.some_or]

theorem Closes.breakLength {body ending : Text} {after : List Text} (closes : Closes ending after)
    (unbroken : Unbroken body) : breakLength (body ++ ending) = ending.length := by
  cases closes with
  | last => simpa using breakLength_of_unbroken unbroken
  | more isBreak _ _ => exact breakLength_append isBreak (unbroken.apart ending)

theorem Closes.isBreak {ending : Text} {after : List Text} (closes : Closes ending after)
    (nonempty : after ≠ []) : IsBreak ending := by
  cases closes with
  | last => exact absurd rfl nonempty
  | more isBreak _ _ => exact isBreak

/-- The last line of a text has no break: one would be followed by another line. -/
theorem Closes.ending_eq_nil {ending : Text} {after : List Text} (closes : Closes ending after)
    (last : after = []) : ending = [] := by
  cases closes with
  | last => rfl
  | more _ _ later => exact absurd last later.ne_nil

/-- An insertion point: the whole lines before it, the text of its line on both sides of it, the
line's break and the lines that follow. -/
structure Place where
  before : List Text
  left : Text
  right : Text
  ending : Text
  after : List Text
  leads : Leads before (left ++ right ++ ending ++ after.flatten)
  unbroken : Unbroken (left ++ right)
  closes : Closes ending after

namespace Place

variable (place : Place)

def line : Text :=
  place.left ++ place.right ++ place.ending

def text : Text :=
  (place.before ++ place.line :: place.after).flatten

/-- A place as line and column. -/
def cursor : Cursor :=
  ⟨place.before.length, place.left.length⟩

/-- A place as an index into its text. -/
def point : Nat :=
  place.before.flatten.length + place.left.length

def front : Text :=
  place.before.flatten ++ place.left

def back : Text :=
  place.right ++ place.ending ++ place.after.flatten

theorem text_eq : place.text = place.front ++ place.back := by
  simp [text, line, front, back]

theorem length_front : place.front.length = place.point := by
  simp [front, point]

theorem take_text : place.text.take place.point = place.front := by
  rw [text_eq, ← length_front, List.take_left]

theorem drop_text : place.text.drop place.point = place.back := by
  rw [text_eq, ← length_front, List.drop_left]

theorem lined : Lined (place.before ++ place.line :: place.after) := by
  rw [lined_append_iff (List.cons_ne_nil _ _)]
  exact ⟨place.leads, place.closes.lined place.unbroken⟩

theorem lines_text : lines place.text = place.before ++ place.line :: place.after :=
  place.lined.lines_flatten

theorem breakLength_line : breakLength place.line = place.ending.length :=
  place.closes.breakLength place.unbroken

theorem length_line_sub :
    place.line.length - breakLength place.line = place.left.length + place.right.length := by
  rw [breakLength_line, line, List.length_append, List.length_append, Nat.add_sub_cancel]

/-- The same line with the insertion point elsewhere in its text. -/
def resplit (left right : Text) (same : left ++ right = place.left ++ place.right) : Place where
  before := place.before
  left := left
  right := right
  ending := place.ending
  after := place.after
  leads := by
    rw [same]
    exact place.leads
  unbroken := by
    rw [same]
    exact place.unbroken
  closes := place.closes

@[simp] theorem line_resplit {left right : Text}
    (same : left ++ right = place.left ++ place.right) :
    (place.resplit left right same).line = place.line := by
  simp only [line, resplit, same]

@[simp] theorem text_resplit {left right : Text}
    (same : left ++ right = place.left ++ place.right) :
    (place.resplit left right same).text = place.text := by
  simp only [text, line, resplit, same]

def atStart : Place :=
  place.resplit [] (place.left ++ place.right) rfl

def atEnd : Place :=
  place.resplit (place.left ++ place.right) [] (List.append_nil _)

theorem exists_column {column : Nat} (inside : column ≤ place.left.length + place.right.length) :
    ∃ target : Place, target.text = place.text ∧ target.before = place.before ∧
      target.left.length = column := by
  refine ⟨place.resplit ((place.left ++ place.right).take column)
    ((place.left ++ place.right).drop column) (List.take_append_drop _ _),
    place.text_resplit _, rfl, ?_⟩
  rw [← List.length_append] at inside
  exact List.length_take_of_le inside

/-- A cut of a text into lines has a place at every column of every line. -/
theorem exists_of_lined {before after : List Text} {line : Text} {column : Nat}
    (lined : Lined (before ++ line :: after)) (inside : column ≤ line.length - breakLength line) :
    ∃ place : Place, place.before = before ∧ place.line = line ∧ place.after = after ∧
      place.left.length = column := by
  obtain ⟨leads, lineLined⟩ := (lined_append_iff (List.cons_ne_nil _ _)).mp lined
  obtain ⟨body, ending, rfl, unbroken, closes⟩ := lineLined.closes
  rw [closes.breakLength unbroken, List.length_append, Nat.add_sub_cancel] at inside
  refine ⟨⟨before, body.take column, body.drop column, ending, after, ?_, ?_, closes⟩, rfl, ?_, rfl,
    ?_⟩
  · rw [List.take_append_drop]
    exact leads
  · rw [List.take_append_drop]
    exact unbroken
  · simp [Place.line]
  · simp [inside]

/-- The line of `above` is the one before the line of `below` in the same text. -/
structure IsAbove (above below : Place) : Prop where
  before : below.before = above.before ++ [above.line]
  after : above.after = below.line :: below.after

theorem IsAbove.text {above below : Place} (isAbove : IsAbove above below) :
    above.text = below.text := by
  simp [Place.text, isAbove.before, isAbove.after]

theorem IsAbove.isBreak {above below : Place} (isAbove : IsAbove above below) :
    IsBreak above.ending := by
  apply above.closes.isBreak
  rw [isAbove.after]
  exact List.cons_ne_nil _ _

/-- Only the break stands between the end of a line's text and the start of the next line. -/
theorem IsAbove.front {above below : Place} (isAbove : IsAbove above below)
    (atEnd : above.right = []) (atStart : below.left = []) :
    below.front = above.front ++ above.ending := by
  simp [Place.front, line, isAbove.before, atEnd, atStart]

theorem IsAbove.back {above below : Place} (isAbove : IsAbove above below)
    (atEnd : above.right = []) (atStart : below.left = []) :
    above.back = above.ending ++ below.back := by
  simp [Place.back, line, isAbove.after, atEnd, atStart]

theorem IsAbove.atEnd {above below : Place} (isAbove : IsAbove above below) :
    IsAbove above.atEnd below where
  before := by
    rw [isAbove.before, Place.atEnd, line_resplit]
    rfl
  after := isAbove.after

theorem IsAbove.atStart {above below : Place} (isAbove : IsAbove above below) :
    IsAbove above below.atStart where
  before := isAbove.before
  after := by
    rw [isAbove.after, Place.atStart, line_resplit]
    rfl

theorem exists_above (nonempty : place.before ≠ []) :
    ∃ above : Place, IsAbove above place ∧ above.right = [] := by
  obtain ⟨front, line, shape⟩ := (List.eq_nil_or_concat place.before).resolve_left nonempty
  rw [List.concat_eq_append] at shape
  have lined := place.lined
  rw [shape, List.append_assoc, List.singleton_append] at lined
  obtain ⟨above, before, sameLine, after, atEnd⟩ := exists_of_lined lined (Nat.le_refl _)
  refine ⟨above, ⟨by rw [before, sameLine, shape], after⟩, ?_⟩
  rw [← sameLine, length_line_sub] at atEnd
  exact List.eq_nil_of_length_eq_zero (by omega)

theorem exists_below (nonempty : place.after ≠ []) :
    ∃ below : Place, IsAbove place below ∧ below.left = [] := by
  obtain ⟨line, after, shape⟩ := List.exists_cons_of_ne_nil nonempty
  have lined := place.lined
  rw [shape, ← List.singleton_append, ← List.append_assoc] at lined
  obtain ⟨below, before, sameLine, sameAfter, atStart⟩ := exists_of_lined lined (Nat.zero_le _)
  refine ⟨below, ⟨before, by rw [shape, sameLine, sameAfter]⟩, ?_⟩
  exact List.eq_nil_of_length_eq_zero atStart

/-- What can stand before a place: a character of its line, another line, or nothing. -/
theorem before_cases :
    (∃ left c, place.left = left ++ [c]) ∨
      (place.left = [] ∧ ∃ above : Place, IsAbove above place ∧ above.right = []) ∨
      (place.left = [] ∧ place.before = []) := by
  rcases List.eq_nil_or_concat place.left with atStart | ⟨left, c, shape⟩
  · by_cases first : place.before = []
    · exact Or.inr (Or.inr ⟨atStart, first⟩)
    · exact Or.inr (Or.inl ⟨atStart, place.exists_above first⟩)
  · exact Or.inl ⟨left, c, shape.trans List.concat_eq_append⟩

/-- What can stand behind a place: a character of its line, another line, or nothing. -/
theorem behind_cases :
    (∃ c right, place.right = c :: right) ∨
      (place.right = [] ∧ ∃ below : Place, IsAbove place below ∧ below.left = []) ∨
      (place.right = [] ∧ place.after = []) := by
  cases shape : place.right with
  | nil =>
      by_cases last : place.after = []
      · exact Or.inr (Or.inr ⟨rfl, last⟩)
      · exact Or.inr (Or.inl ⟨rfl, place.exists_below last⟩)
  | cons c right => exact Or.inl ⟨c, right, rfl⟩

theorem back_eq_nil (atEnd : place.right = []) (last : place.after = []) : place.back = [] := by
  simp [back, atEnd, last, place.closes.ending_eq_nil last]

end Place

namespace Buffer

variable {buffer : Buffer} {place : Place}

theorem lineCount_of_place (text : buffer.text = place.text) :
    buffer.lineCount = place.before.length + 1 + place.after.length := by
  rw [lineCount, text, place.lines_text, List.length_append, List.length_cons]
  omega

theorem line?_of_place (text : buffer.text = place.text) :
    buffer.line? place.before.length = some place.line := by
  rw [line?, text, place.lines_text, List.getElem?_append_right (Nat.le_refl _), Nat.sub_self]
  rfl

theorem lineLength?_of_place (text : buffer.text = place.text) :
    buffer.lineLength? place.before.length = some (place.left.length + place.right.length) := by
  rw [lineLength?, line?_of_place text, Option.map_some, place.length_line_sub]

theorem lineStart?_of_place (text : buffer.text = place.text) :
    buffer.lineStart? place.before.length = some place.before.flatten.length := by
  have inside : place.before.length ≤ buffer.lineCount := by
    rw [lineCount_of_place text]
    omega
  rw [lineStart?, if_pos inside, text, place.lines_text, List.take_left]

theorem insert?_of_place (text : buffer.text = place.text) (added : Text) :
    buffer.insert? place.before.length place.left.length added =
      some { buffer with text := place.front ++ added ++ place.back, dirty := true } := by
  have inside : place.point ≤ buffer.text.length := by
    rw [text, place.text_eq, List.length_append, place.length_front]
    omega
  rw [insert?, lineStart?_of_place text]
  dsimp only
  rw [← Place.point, if_pos inside, insertAt, text, place.take_text, place.drop_text]

theorem removeAt_of_append {front unit back : Text}
    (text : buffer.text = front ++ unit ++ back) :
    buffer.removeAt front.length unit.length =
      { buffer with text := front ++ back, dirty := true } := by
  rw [removeAt, text, ← List.length_append, List.drop_left, List.append_assoc, List.take_left]

/-- What is taken out before a place is the given piece, if that has the length of a character
or, at the start of a line, of the break before it. -/
theorem backspace?_of_place (text : buffer.text = place.text) {front unit : Text}
    (shape : place.front = front ++ unit) (nonempty : unit ≠ [])
    (width : (if place.left.length = 0 then
      (buffer.line? (place.before.length - 1)).map breakLength else some 1) = some unit.length) :
    buffer.backspace? place.before.length place.left.length =
      some (true, { buffer with text := front ++ place.back, dirty := true }) := by
  have positive := List.length_pos_iff.mpr nonempty
  have point : place.point = front.length + unit.length := by
    rw [← place.length_front, shape, List.length_append]
  have whole : buffer.text = front ++ unit ++ place.back := by
    rw [text, place.text_eq, shape]
  have inside : place.point ≤ buffer.text.length := by
    rw [whole, List.length_append, List.length_append]
    omega
  have notStart : ¬ place.point = 0 := by omega
  rw [backspace?, lineStart?_of_place text]
  dsimp only
  rw [← Place.point, if_neg notStart, width]
  dsimp only
  rw [if_pos inside, point, Nat.add_sub_cancel, removeAt_of_append whole]

theorem backspace?_of_concat (text : buffer.text = place.text) {left : Text} {c : Char}
    (shape : place.left = left ++ [c]) :
    buffer.backspace? place.before.length place.left.length =
      some (true, { buffer with
        text := place.before.flatten ++ left ++ place.back, dirty := true }) := by
  have front : place.front = place.before.flatten ++ left ++ [c] := by
    rw [Place.front, shape, List.append_assoc]
  apply backspace?_of_place text front (List.cons_ne_nil c [])
  rw [shape, List.length_append, List.length_singleton, if_neg (Nat.succ_ne_zero _)]

theorem backspace?_of_isAbove {above : Place} (text : buffer.text = place.text)
    (isAbove : above.IsAbove place) (atEnd : above.right = []) (atStart : place.left = []) :
    buffer.backspace? place.before.length place.left.length =
      some (true, { buffer with text := above.front ++ place.back, dirty := true }) := by
  apply backspace?_of_place text (isAbove.front atEnd atStart) isAbove.isBreak.ne_nil
  have line : place.before.length - 1 = above.before.length := by
    rw [isAbove.before, List.length_append, List.length_singleton, Nat.add_sub_cancel]
  rw [atStart, List.length_nil, if_pos rfl, line, line?_of_place (text.trans isAbove.text.symm),
    Option.map_some, above.breakLength_line]

theorem backspace?_of_start (text : buffer.text = place.text) (atStart : place.point = 0) :
    buffer.backspace? place.before.length place.left.length = some (false, buffer) := by
  rw [backspace?, lineStart?_of_place text]
  dsimp only
  rw [← Place.point, if_pos atStart]

/-- How much is taken out behind a place, by the text of its line. -/
theorem deleteCount_of_place :
    (if place.line.length - breakLength place.line ≤ place.left.length then
      breakLength place.line else 1) =
      if place.right = [] then place.ending.length else 1 := by
  have atEnd : place.left.length + place.right.length ≤ place.left.length ↔ place.right = [] := by
    rw [← List.length_eq_zero_iff]
    omega
  rw [place.length_line_sub, place.breakLength_line]
  simp only [atEnd]

/-- What is taken out behind a place is the given piece, if that has the length of a character
or, at the end of a line, of its break. -/
theorem delete?_of_place (text : buffer.text = place.text) {unit back : Text}
    (shape : place.back = unit ++ back) (nonempty : unit ≠ [])
    (width : (if place.right = [] then place.ending.length else 1) = unit.length) :
    buffer.delete? place.before.length place.left.length =
      some { buffer with text := place.front ++ back, dirty := true } := by
  have positive := List.length_pos_iff.mpr nonempty
  have whole : buffer.text = place.front ++ unit ++ back := by
    rw [text, place.text_eq, shape, List.append_assoc]
  have inside : place.point + unit.length ≤ buffer.text.length := by
    rw [whole, List.length_append, List.length_append, place.length_front]
    omega
  rw [delete?, lineStart?_of_place text, line?_of_place text]
  simp only [deleteCount_of_place, width]
  rw [← Place.point, if_pos ⟨positive, inside⟩, ← place.length_front, removeAt_of_append whole]

theorem delete?_of_cons (text : buffer.text = place.text) {right : Text} {c : Char}
    (shape : place.right = c :: right) :
    buffer.delete? place.before.length place.left.length =
      some { buffer with
        text := place.front ++ (right ++ place.ending ++ place.after.flatten)
        dirty := true } := by
  have back : place.back = [c] ++ (right ++ place.ending ++ place.after.flatten) := by
    simp [Place.back, shape]
  apply delete?_of_place text back (List.cons_ne_nil c [])
  rw [shape, if_neg (List.cons_ne_nil c right), List.length_singleton]

theorem delete?_of_isAbove {below : Place} (text : buffer.text = place.text)
    (isAbove : place.IsAbove below) (atEnd : place.right = []) (atStart : below.left = []) :
    buffer.delete? place.before.length place.left.length =
      some { buffer with text := place.front ++ below.back, dirty := true } := by
  apply delete?_of_place text (isAbove.back atEnd atStart) isAbove.isBreak.ne_nil
  rw [if_pos atEnd]

theorem delete?_of_end (text : buffer.text = place.text) (atEnd : place.back = []) :
    buffer.delete? place.before.length place.left.length = some buffer := by
  obtain ⟨⟨right, ending⟩, _⟩ :
      (place.right = [] ∧ place.ending = []) ∧ place.after.flatten = [] := by
    simpa only [Place.back, List.append_eq_nil_iff] using atEnd
  have inside : ¬ place.line.length < place.left.length := by
    rw [Place.line, List.length_append, List.length_append]
    omega
  rw [delete?, lineStart?_of_place text, line?_of_place text]
  simp only [deleteCount_of_place, right, ending]
  simp [inside]

/-- Every position inside a text is that of a place. -/
theorem exists_place {line column length : Nat}
    (present : buffer.lineLength? line = some length) (inside : column ≤ length) :
    ∃ place : Place, buffer.text = place.text ∧ place.cursor = ⟨line, column⟩ := by
  obtain ⟨text, found, rfl⟩ := Option.map_eq_some_iff.mp present
  obtain ⟨bound, this⟩ := List.getElem?_eq_some_iff.mp found
  have shape : lines buffer.text =
      (lines buffer.text).take line ++ text :: (lines buffer.text).drop (line + 1) := by
    rw [← this, ← List.drop_eq_getElem_cons bound, List.take_append_drop]
  have lined := lined_lines buffer.text
  rw [shape] at lined
  obtain ⟨place, before, sameLine, after, left⟩ := Place.exists_of_lined lined inside
  refine ⟨place, ?_, ?_⟩
  · rw [Place.text, before, sameLine, after, ← shape, lines_flatten]
  · have count : ((lines buffer.text).take line).length = line := by
      rw [List.length_take]
      omega
    rw [Place.cursor, before, left, count]

end Buffer

end Dabara
