import Dabara.Proofs.Place

set_option autoImplicit false

namespace Dabara

namespace Buffer

/-- The index that a position stands for: the length of the lines before it, and its column. -/
def offset (buffer : Buffer) (line column : Nat) : Nat :=
  ((lines buffer.text).take line).flatten.length + column

/-- A change of the flat text: at an index some text is taken out and other text is put in, and the
text is marked as changed. -/
def Spliced (old : Buffer) (index : Nat) (removed added : Text) (new : Buffer) : Prop :=
  ∃ front back, front.length = index ∧ old.text = front ++ removed ++ back ∧
    new = { old with text := front ++ added ++ back, dirty := true }

/-- A line of a buffer as its text and the break that ends it. Only the last line has none. -/
structure HasLine (buffer : Buffer) (line : Nat) (body ending : Text) : Prop where
  present : buffer.line? line = some (body ++ ending)
  unbroken : Unbroken body
  isBreak : line + 1 < buffer.lineCount → IsBreak ending
  last : line + 1 = buffer.lineCount → ending = []

/-- Characters that are taken out at a column of a line: one of its text, and behind its text as
many as its break has. -/
def removedCount (body ending : Text) (column : Nat) : Nat :=
  if column < body.length then 1 else ending.length

variable {buffer : Buffer} {line column : Nat}

theorem lineStart?_of_le (inside : line ≤ buffer.lineCount) :
    buffer.lineStart? line = some (buffer.offset line 0) :=
  if_pos inside

theorem lineStart?_of_lt (outside : buffer.lineCount < line) : buffer.lineStart? line = none :=
  if_neg (by omega)

theorem offset_zero_add (buffer : Buffer) (line column : Nat) :
    buffer.offset line 0 + column = buffer.offset line column := rfl

theorem offset_of_place {place : Place} (text : buffer.text = place.text) :
    buffer.offset place.before.length place.left.length = place.point := by
  rw [offset, text, place.lines_text, List.take_left]
  rfl

theorem exists_hasLine (inside : line < buffer.lineCount) :
    ∃ body ending, buffer.HasLine line body ending := by
  have present : buffer.lineLength? line = some _ :=
    congrArg (Option.map _) (List.getElem?_eq_getElem inside)
  obtain ⟨place, text, cursor⟩ := exists_place present (Nat.zero_le _)
  obtain rfl : place.before.length = line := congrArg Cursor.line cursor
  have count := lineCount_of_place text
  refine ⟨place.left ++ place.right, place.ending, line?_of_place text, place.unbroken, ?_, ?_⟩
  · intro more
    apply place.closes.isBreak
    rw [← List.length_pos_iff]
    omega
  · intro last
    apply place.closes.ending_eq_nil
    exact List.eq_nil_of_length_eq_zero (by omega)

theorem HasLine.lt_lineCount {body ending : Text} (has : buffer.HasLine line body ending) :
    line < buffer.lineCount :=
  (List.getElem?_eq_some_iff.mp has.present).1

theorem HasLine.breakLength {body ending : Text} (has : buffer.HasLine line body ending) :
    breakLength (body ++ ending) = ending.length := by
  have inside := has.lt_lineCount
  by_cases more : line + 1 < buffer.lineCount
  · exact breakLength_append (has.isBreak more) (has.unbroken.apart ending)
  · rw [has.last (by omega), List.append_nil]
    exact breakLength_of_unbroken has.unbroken

theorem HasLine.lineLength? {body ending : Text} (has : buffer.HasLine line body ending) :
    buffer.lineLength? line = some body.length := by
  rw [Buffer.lineLength?, has.present, Option.map_some, has.breakLength, List.length_append,
    Nat.add_sub_cancel]

/-- The break of a line stands before the start of the next one. -/
theorem HasLine.text_eq {body ending : Text} (has : buffer.HasLine line body ending) :
    ∃ front back, buffer.text = front ++ ending ++ back ∧
      front.length + ending.length = buffer.offset (line + 1) 0 := by
  have whole := append_line_append has.present
  refine ⟨((lines buffer.text).take line).flatten ++ body,
    ((lines buffer.text).drop (line + 1)).flatten, ?_, ?_⟩
  · rw [List.append_assoc _ body ending, whole]
  · have through : (lines buffer.text).take (line + 1) =
        (lines buffer.text).take line ++ [body ++ ending] := by
      rw [List.take_add_one, show (lines buffer.text)[line]? = some _ from has.present,
        Option.toList_some]
    rw [offset, through, List.flatten_append, List.flatten_singleton]
    simp only [List.length_append]
    omega

theorem spliced_insertAt {index : Nat} (inside : index ≤ buffer.text.length) (added : Text) :
    buffer.Spliced index [] added (buffer.insertAt index added) := by
  refine ⟨buffer.text.take index, buffer.text.drop index, List.length_take_of_le inside, ?_, rfl⟩
  rw [List.append_nil, List.take_append_drop]

theorem spliced_removeAt {front removed back : Text}
    (text : buffer.text = front ++ removed ++ back) :
    buffer.Spliced front.length removed [] (buffer.removeAt front.length removed.length) := by
  refine ⟨front, back, rfl, text, ?_⟩
  rw [removeAt_of_append text, List.append_nil]

/-- A text can be cut around any range inside it. -/
theorem exists_cut {text : Text} {index count : Nat} (inside : index + count ≤ text.length) :
    ∃ front removed back, text = front ++ removed ++ back ∧ front.length = index ∧
      removed.length = count := by
  refine ⟨text.take index, (text.drop index).take count, (text.drop index).drop count, ?_, ?_, ?_⟩
  · rw [List.append_assoc, List.take_append_drop, List.take_append_drop]
  · exact List.length_take_of_le (by omega)
  · apply List.length_take_of_le
    rw [List.length_drop]
    omega

structure InsertsFlat (buffer : Buffer) (line column : Nat) : Prop where
  fails : ∀ added, buffer.insert? line column added = none ↔
    buffer.lineCount < line ∨ buffer.text.length < buffer.offset line column
  inserts : ∀ added new, buffer.insert? line column added = some new →
    buffer.Spliced (buffer.offset line column) [] added new

/-- The end of what is taken out at a position can be counted. -/
def Counted (buffer : Buffer) (line column : Nat) : Prop :=
  ∀ body ending, buffer.HasLine line body ending →
    buffer.offset line column + removedCount body ending column < countLimit

/-- What the deletion at a position does to the flat text. Nothing is taken out that is not wholly
inside the text. -/
structure DeletesFlat (buffer : Buffer) (line column : Nat) : Prop where
  fails : buffer.delete? line column = none ↔ buffer.lineCount ≤ line
  removes : ∀ body ending, buffer.HasLine line body ending →
    0 < removedCount body ending column →
    buffer.offset line column + removedCount body ending column ≤ buffer.text.length →
    ∃ removed new, buffer.delete? line column = some new ∧
      removed.length = removedCount body ending column ∧
      buffer.Spliced (buffer.offset line column) removed [] new
  keeps : ∀ body ending, buffer.HasLine line body ending →
    ¬ (0 < removedCount body ending column ∧
      buffer.offset line column + removedCount body ending column ≤ buffer.text.length) →
    buffer.delete? line column = some buffer

/-- What can be taken out before a position: one character, or at the start of a line the whole
break of the line before. -/
structure StandsBefore (buffer : Buffer) (line column : Nat) (removed : Text) : Prop where
  inLine : column ≠ 0 → removed.length = 1
  atStart : column = 0 → 0 < line ∧ ∃ body, buffer.HasLine (line - 1) body removed

/-- What the deletion before a position does to the flat text. What it takes out ends at the index
of the position. -/
structure BackspacesFlat (buffer : Buffer) (line column : Nat) : Prop where
  fails : buffer.backspace? line column = none ↔
    buffer.lineCount < line ∨ buffer.text.length < buffer.offset line column
  keeps : line ≤ buffer.lineCount → buffer.offset line column = 0 →
    buffer.backspace? line column = some (false, buffer)
  removes : line ≤ buffer.lineCount → buffer.offset line column ≠ 0 →
    buffer.offset line column ≤ buffer.text.length →
    ∃ index removed new, buffer.backspace? line column = some (true, new) ∧
      index + removed.length = buffer.offset line column ∧
      buffer.StandsBefore line column removed ∧ buffer.Spliced index removed [] new

theorem insert?_eq (buffer : Buffer) (line column : Nat) (added : Text) :
    buffer.insert? line column added =
      if line ≤ buffer.lineCount ∧ buffer.offset line column ≤ buffer.text.length then
        some (buffer.insertAt (buffer.offset line column) added)
      else none := by
  by_cases onLine : line ≤ buffer.lineCount
  · rw [insert?, lineStart?_of_le onLine]
    dsimp only
    rw [offset_zero_add]
    by_cases inside : buffer.offset line column ≤ buffer.text.length
    · rw [if_pos inside, if_pos ⟨onLine, inside⟩]
    · rw [if_neg inside, if_neg (fun both => inside both.2)]
  · rw [insert?, lineStart?_of_lt (by omega), if_neg (fun both => onLine both.1)]

theorem insertsFlat (buffer : Buffer) (line column : Nat) : buffer.InsertsFlat line column := by
  constructor
  case fails =>
    intro added
    rw [insert?_eq, ite_eq_right_iff]
    simp only [reduceCtorEq, imp_false]
    omega
  case inserts =>
    intro added new success
    rw [insert?_eq] at success
    obtain ⟨inside, found⟩ := Option.ite_none_right_eq_some.mp success
    obtain rfl := Option.some.inj found
    exact spliced_insertAt inside.2 added

/-- How a deletion goes on once its line is known. -/
theorem HasLine.delete?_eq {body ending : Text} (has : buffer.HasLine line body ending)
    (column : Nat)
    (fits : buffer.offset line column + removedCount body ending column < countLimit) :
    buffer.delete? line column =
      if 0 < removedCount body ending column ∧
          buffer.offset line column + removedCount body ending column ≤ buffer.text.length then
        some (buffer.removeAt (buffer.offset line column) (removedCount body ending column))
      else some buffer := by
  have count : (if body.length ≤ column then ending.length else 1) =
      removedCount body ending column := by
    unfold removedCount
    by_cases within : column < body.length
    · rw [if_neg (by omega), if_pos within]
    · rw [if_pos (by omega), if_neg within]
  have counted : ¬ ((body ++ ending).length < column ∧
      countLimit ≤ buffer.offset line column + removedCount body ending column) := by omega
  rw [delete?, lineStart?_of_le (Nat.le_of_lt has.lt_lineCount), has.present]
  simp only [has.breakLength, List.length_append, Nat.add_sub_cancel, count]
  rw [offset_zero_add, ← List.length_append, if_neg counted]

theorem delete?_of_outside (outside : buffer.lineCount ≤ line) (column : Nat) :
    buffer.delete? line column = none := by
  have missing : buffer.line? line = none := List.getElem?_eq_none outside
  rw [delete?, missing]
  split
  · next absent => cases absent
  · rfl

theorem deletesFlat (counted : buffer.Counted line column) : buffer.DeletesFlat line column := by
  constructor
  case fails =>
    refine ⟨?_, fun outside => delete?_of_outside outside column⟩
    intro failed
    by_contra inside
    obtain ⟨body, ending, has⟩ := exists_hasLine (Nat.not_le.mp inside)
    rw [has.delete?_eq column (counted body ending has)] at failed
    split at failed <;> cases failed
  case removes =>
    intro body ending has positive inside
    obtain ⟨front, removed, back, text, start, length⟩ := exists_cut inside
    refine ⟨removed, buffer.removeAt front.length removed.length, ?_, length, ?_⟩
    · rw [has.delete?_eq column (counted body ending has), if_pos ⟨positive, inside⟩, start, length]
    · rw [← start]
      exact spliced_removeAt text
  case keeps =>
    intro body ending has outside
    rw [has.delete?_eq column (counted body ending has), if_neg outside]

theorem offset_zero_le (buffer : Buffer) (line : Nat) :
    buffer.offset line 0 ≤ buffer.text.length := by
  have whole : ((lines buffer.text).take line).flatten ++ ((lines buffer.text).drop line).flatten =
      buffer.text := by
    rw [← List.flatten_append, List.take_append_drop, lines_flatten]
  have length := congrArg List.length whole
  rw [List.length_append] at length
  rw [offset]
  omega

theorem StandsBefore.width {removed : Text} (stands : buffer.StandsBefore line column removed) :
    (if column = 0 then (buffer.line? (line - 1)).map Dabara.breakLength else some 1) =
      some removed.length := by
  by_cases first : column = 0
  · obtain ⟨_, body, has⟩ := stands.atStart first
    rw [if_pos first, has.present, Option.map_some, has.breakLength]
  · rw [if_neg first, stands.inLine first]

/-- Something stands before every position inside the text but its start. -/
theorem exists_standsBefore (onLine : line ≤ buffer.lineCount)
    (something : buffer.offset line column ≠ 0)
    (inside : buffer.offset line column ≤ buffer.text.length) :
    ∃ front removed back, buffer.text = front ++ removed ++ back ∧
      front.length + removed.length = buffer.offset line column ∧
      buffer.StandsBefore line column removed := by
  by_cases first : column = 0
  · subst first
    have notFirst : line ≠ 0 := by
      rintro rfl
      exact something rfl
    obtain ⟨body, ending, has⟩ := exists_hasLine (show line - 1 < buffer.lineCount by omega)
    obtain ⟨front, back, text, length⟩ := has.text_eq
    rw [show line - 1 + 1 = line by omega] at length
    refine ⟨front, ending, back, text, length, fun other => absurd rfl other, fun _ => ?_⟩
    exact ⟨by omega, body, has⟩
  · obtain ⟨front, removed, back, text, start, length⟩ :=
      exists_cut (show buffer.offset line column - 1 + 1 ≤ buffer.text.length by omega)
    exact ⟨front, removed, back, text, by omega, fun _ => length, fun same => absurd same first⟩

theorem backspace?_of_outside
    (outside : buffer.lineCount < line ∨ buffer.text.length < buffer.offset line column) :
    buffer.backspace? line column = none := by
  by_cases onLine : line ≤ buffer.lineCount
  · have beyond : ¬ buffer.offset line column ≤ buffer.text.length := by omega
    have something : buffer.offset line column ≠ 0 := by omega
    -- A line starts inside the text, so the column is not its first one.
    have notStart : column ≠ 0 := by
      rintro rfl
      exact beyond (buffer.offset_zero_le line)
    rw [backspace?, lineStart?_of_le onLine]
    dsimp only
    rw [offset_zero_add, if_neg something, if_neg notStart]
    exact if_neg beyond
  · rw [backspace?, lineStart?_of_lt (by omega)]

theorem backspace?_of_nothing (onLine : line ≤ buffer.lineCount)
    (nothing : buffer.offset line column = 0) :
    buffer.backspace? line column = some (false, buffer) := by
  rw [backspace?, lineStart?_of_le onLine]
  exact if_pos nothing

theorem exists_backspace? (onLine : line ≤ buffer.lineCount)
    (something : buffer.offset line column ≠ 0)
    (inside : buffer.offset line column ≤ buffer.text.length) :
    ∃ index removed new, buffer.backspace? line column = some (true, new) ∧
      index + removed.length = buffer.offset line column ∧
      buffer.StandsBefore line column removed ∧ buffer.Spliced index removed [] new := by
  obtain ⟨front, removed, back, text, length, stands⟩ :=
    exists_standsBefore onLine something inside
  refine ⟨front.length, removed, buffer.removeAt front.length removed.length, ?_, length, stands,
    spliced_removeAt text⟩
  rw [backspace?, lineStart?_of_le onLine]
  dsimp only
  rw [offset_zero_add, if_neg something, stands.width]
  dsimp only
  rw [if_pos inside, ← length, Nat.add_sub_cancel]

theorem backspacesFlat (buffer : Buffer) (line column : Nat) :
    buffer.BackspacesFlat line column := by
  refine ⟨⟨?_, backspace?_of_outside⟩, backspace?_of_nothing, exists_backspace?⟩
  intro failed
  by_contra inside
  by_cases nothing : buffer.offset line column = 0
  · rw [backspace?_of_nothing (by omega) nothing] at failed
    cases failed
  · obtain ⟨_, _, _, found, _⟩ :=
      exists_backspace? (show line ≤ buffer.lineCount by omega) nothing (by omega)
    rw [found] at failed
    cases failed

/-- Every line of a text ends with its break, and its length is counted without it. Every operation
at every position changes the flat text as the position says, and fails nowhere but outside the
text. -/
theorem edits_follow_flat_text (buffer : Buffer) (line column : Nat) :
    (line < buffer.lineCount → ∃ body ending, buffer.HasLine line body ending ∧
        buffer.lineLength? line = some body.length) ∧
      buffer.InsertsFlat line column ∧
      (buffer.Counted line column → buffer.DeletesFlat line column) ∧
      buffer.BackspacesFlat line column := by
  refine ⟨?_, insertsFlat buffer line column, deletesFlat, backspacesFlat buffer line column⟩
  intro inside
  obtain ⟨body, ending, has⟩ := exists_hasLine inside
  exact ⟨body, ending, has, has.lineLength?⟩

/-- Behind the text of a line the whole pair that ends it is taken out. -/
theorem edits_follow_flat_text_pair :
    ∃ buffer : Buffer, buffer.text = ['a', '\r', '\n', 'b'] ∧ buffer.Counted 0 1 ∧
      buffer.DeletesFlat 0 1 ∧
      buffer.delete? 0 1 = some { buffer with text := ['a', 'b'], dirty := true } := by
  let buffer := Buffer.ofText ['a', '\r', '\n', 'b']
  have counted : buffer.Counted 0 1 := by
    intro body ending has
    have line : ['a', '\r', '\n'] = body ++ ending := Option.some.inj has.present
    have length : 3 = body.length + ending.length := by
      rw [← List.length_append, ← line]
      rfl
    show 0 + 1 + removedCount body ending 1 < countLimit
    unfold removedCount countLimit
    split <;> omega
  exact ⟨buffer, rfl, counted, (edits_follow_flat_text buffer 0 1).2.2.1 counted, rfl⟩

/-- Behind the last line there is no break to take out, yet the text counts as changed. -/
example : (Buffer.ofText ['a', '\n']).backspace? 2 0 = some (true, ⟨['a', '\n'], none, true⟩) := by
  decide

end Buffer

end Dabara
