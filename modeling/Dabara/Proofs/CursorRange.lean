import Dabara.Proofs.EditorRefinement
import Mathlib.Data.List.Induction

set_option autoImplicit false

namespace Dabara

/-- The break that a break character begins. -/
theorem exists_isBreak {c : Char} (breaks : isLineBreak c = true) (rest : Text) :
    ∃ ending later, c :: rest = ending ++ later ∧ IsBreak ending ∧ Apart ending later := by
  by_cases pair : c = '\r' ∧ rest.head? = some '\n'
  · obtain ⟨rfl, first⟩ := pair
    obtain ⟨later, rfl⟩ := List.head?_eq_some_iff.mp first
    exact ⟨['\r', '\n'], later, rfl, .pair, by simp [Apart]⟩
  · refine ⟨[c], rest, rfl, .single breaks, ?_⟩
    simpa [Apart] using pair

/-- Text of a line that is not empty keeps what follows it from completing a pair. -/
theorem Unbroken.apart_append {text : Text} (unbroken : Unbroken text) (nonempty : text ≠ [])
    (front rest : Text) : Apart front (text ++ rest) := by
  intro cut
  obtain ⟨c, more, rfl⟩ := List.exists_cons_of_ne_nil nonempty
  have feed : c = '\n' := by simpa using cut.2
  rw [feed, unbroken_cons] at unbroken
  exact absurd unbroken.1 (by decide)

namespace Place

/-- A line feed behind a carriage return leaves the lines that follow where they are. -/
theorem exists_of_return {before after : List Text} {line other : Text} {column : Nat}
    (leads : Leads before other) (last : before.flatten.getLast? = some '\r')
    (lined : Lined (line :: after)) (inside : column ≤ line.length - breakLength line) :
    ∃ next : Place, next.text = before.flatten ++ '\n' :: (line :: after).flatten ∧
      next.before.length = before.length ∧ next.line = line ∧ next.after = after ∧
      next.left.length = column := by
  obtain ⟨init, final, rfl, cut, _⟩ := lines_append_of_return leads last (line :: after).flatten
  rw [lined.lines_flatten, List.append_cons init (final ++ ['\n'])] at cut
  obtain ⟨flat, whole⟩ := (lines_eq_iff _ _).mp cut
  obtain ⟨next, sameBefore, sameLine, sameAfter, left⟩ := exists_of_lined whole inside
  refine ⟨next, ?_, ?_, sameLine, sameAfter, left⟩
  · rw [text, sameBefore, sameLine, sameAfter, flat]
  · rw [sameBefore, List.length_append, List.length_append]
    rfl

/-- Whatever text comes to stand behind whole lines, there is a place in it as far behind them as
its first line reaches. When that line is empty and its line feed completes a pair, the place is
the start of the line that follows. -/
theorem exists_of_parts {before after : List Text} {left right ending other : Text}
    (leads : Leads before other) (unbroken : Unbroken (left ++ right))
    (closes : Closes ending after) :
    ∃ next : Place, next.text = before.flatten ++ (left ++ right ++ ending ++ after.flatten) ∧
      next.before.length = before.length ∧ next.left.length = left.length := by
  by_cases apart : Apart before.flatten (left ++ right ++ ending ++ after.flatten)
  · let next : Place :=
      ⟨before, left, right, ending, after, leads.replace apart, unbroken, closes⟩
    exact ⟨next, by simp [next, text, line], rfl, rfl⟩
  · -- Only the line feed of an empty line can complete a pair, and then a line follows it.
    obtain ⟨last, first⟩ := Classical.not_not.mp apart
    have empty : left ++ right = [] := by
      by_cases nonempty : left ++ right = []
      · exact nonempty
      · rw [List.append_assoc] at apart
        exact absurd (unbroken.apart_append nonempty _ _) apart
    obtain ⟨rfl, rfl⟩ := List.append_eq_nil_iff.mp empty
    cases closes with
    | last => simp at first
    | more isBreak _ later =>
        obtain ⟨line, more, rfl⟩ := List.exists_cons_of_ne_nil later.ne_nil
        cases isBreak with
        | pair => simp at first
        | @single c _ =>
            have feed : c = '\n' := by simpa using first
            subst feed
            obtain ⟨next, text, sameBefore, _, _, left⟩ :=
              exists_of_return leads last later (Nat.zero_le _)
            exact ⟨next, text, sameBefore, left⟩

end Place

namespace Editor

/-- The cursor is on a line of the text and not behind that line's text. -/
structure InRange (editor : Editor) : Prop where
  line : editor.cursor.line < editor.buffer.lineCount
  column : ∃ length, editor.buffer.lineLength? editor.cursor.line = some length ∧
    editor.cursor.column ≤ length

def AfterReturn (editor : Editor) : Prop :=
  ∃ start, editor.buffer.lineStart? editor.cursor.line = some start ∧
    (editor.buffer.text.take (start + editor.cursor.column)).getLast? = some '\r'

/-- The keys that take the cursor out of the text or cannot be answered. -/
def Strays (editor : Editor) : Key → Prop
  | .char c => isLineBreak c = true ∧
      ¬ (c = '\n' ∧ editor.AfterReturn ∧
        editor.buffer.lineLength? editor.cursor.line ≠ some 0)
  | .enter => editor.AfterReturn ∧ editor.buffer.lineCount ≤ editor.cursor.line + 1
  | .tab => textLimit ≤ editor.tabWidth
  | _ => False

theorem strays_char_iff (editor : Editor) (c : Char) :
    editor.Strays (.char c) ↔ isLineBreak c = true ∧
      ¬ (c = '\n' ∧ editor.AfterReturn ∧
        editor.buffer.lineLength? editor.cursor.line ≠ some 0) :=
  Iff.rfl

theorem strays_enter_iff (editor : Editor) :
    editor.Strays .enter ↔
      editor.AfterReturn ∧ editor.buffer.lineCount ≤ editor.cursor.line + 1 :=
  Iff.rfl

theorem strays_tab_iff (editor : Editor) :
    editor.Strays .tab ↔ textLimit ≤ editor.tabWidth :=
  Iff.rfl

variable {editor : Editor} {place : Place}

/-- On the line of a place the columns in range are those of the line's text. -/
theorem inRange_iff_of_place (text : editor.buffer.text = place.text)
    (line : editor.cursor.line = place.before.length) :
    editor.InRange ↔ editor.cursor.column ≤ place.left.length + place.right.length := by
  have length := Buffer.lineLength?_of_place text
  have count := Buffer.lineCount_of_place text
  rw [← line] at length
  constructor
  · intro inRange
    obtain ⟨found, present, inside⟩ := inRange.column
    rw [length, Option.some.injEq] at present
    omega
  · intro inside
    exact ⟨by omega, _, length, inside⟩

theorem At.inRange (stands : editor.At place) : editor.InRange := by
  rw [inRange_iff_of_place stands.text stands.line, stands.column]
  omega

theorem InRange.exists_place (inRange : editor.InRange) : ∃ place : Place, editor.At place := by
  obtain ⟨length, present, inside⟩ := inRange.column
  obtain ⟨place, text, cursor⟩ := Buffer.exists_place present inside
  exact ⟨place, text, (congrArg Cursor.line cursor).symm, (congrArg Cursor.column cursor).symm⟩

theorem InRange.of_same {other : Editor} (inRange : editor.InRange)
    (text : other.buffer.text = editor.buffer.text) (cursor : other.cursor = editor.cursor) :
    other.InRange := by
  obtain ⟨place, stands⟩ := inRange.exists_place
  have standsToo : other.At place :=
    { text := text.trans stands.text
      line := by rw [cursor, stands.line]
      column := by rw [cursor, stands.column] }
  exact standsToo.inRange

theorem At.afterReturn_iff (stands : editor.At place) :
    editor.AfterReturn ↔ place.left = [] ∧ place.before.flatten.getLast? = some '\r' := by
  have front : editor.AfterReturn ↔ place.front.getLast? = some '\r' := by
    rw [AfterReturn, stands.line, stands.column, stands.text,
      Buffer.lineStart?_of_place stands.text]
    simp only [Option.some.injEq, exists_eq_left']
    rw [← Place.point, place.take_text]
  rw [front, Place.front, List.getLast?_append]
  cases shape : place.left with
  | nil => simp
  | cons c rest =>
      have inside := place.unbroken_left.settled
      rw [shape] at inside
      simpa [Settled] using inside

/-- An operation succeeds and leaves the cursor in range. -/
def Lands (result : Option Editor) : Prop :=
  ∃ editor, result = some editor ∧ editor.InRange

theorem Reaches.lands {result : Option Editor} {tabWidth : Nat} {flat : FlatText}
    (reaches : Reaches result tabWidth flat) : Lands result := by
  obtain ⟨next, place, success, stands, _, _⟩ := reaches
  exact ⟨next, success, stands.inRange⟩

theorem At.lands_insert?_iff (stands : editor.At place) {next : Place} {added : Text}
    (text : next.text = place.front ++ added ++ place.back) {line column : Nat}
    (sameLine : line = next.before.length) :
    Lands (editor.insert? added line column) ↔ column ≤ next.left.length + next.right.length := by
  rw [insert?, stands.line, stands.column, Buffer.insert?_of_place stands.text, Option.map_some]
  simp only [Lands, Option.some.injEq, exists_eq_left']
  exact inRange_iff_of_place text.symm sameLine

/-- An insertion leads to a line of the text that it makes. -/
theorem At.lineCount_of_lands (stands : editor.At place) {next : Place} {added : Text}
    (text : next.text = place.front ++ added ++ place.back) {line column : Nat}
    (lands : Lands (editor.insert? added line column)) :
    line < next.before.length + 1 + next.after.length := by
  rw [insert?, stands.line, stands.column, Buffer.insert?_of_place stands.text,
    Option.map_some] at lands
  obtain ⟨typed, success, inRange⟩ := lands
  obtain rfl := Option.some.inj success
  have inside := inRange.line
  rwa [Buffer.lineCount_of_place (show _ = next.text from text.symm)] at inside

theorem lands_insert?_of_unbroken (stands : editor.At place) {added : Text}
    (unbroken : Unbroken added) {column : Nat}
    (sameColumn : column = editor.cursor.column + added.length) :
    Lands (editor.insert? added editor.cursor.line column) := by
  have whole : Unbroken (place.left ++ added ++ place.right) := by
    simp [unbroken, place.unbroken_left, place.unbroken_right]
  obtain ⟨next, text, line, left⟩ := Place.exists_of_parts place.leads whole place.closes
  have split : next.text = place.front ++ added ++ place.back := by
    simp [text, Place.front, Place.back]
  rw [stands.lands_insert?_iff split (stands.line.trans line.symm), left, sameColumn,
    stands.column, List.length_append]
  exact Nat.le_add_right _ _

/-- What is typed at the cursor joins no carriage return before it, unless it completes a pair. -/
theorem At.apart_typed (stands : editor.At place) {c : Char}
    (alone : ¬ (c = '\n' ∧ editor.AfterReturn)) (rest : Text) :
    Apart place.before.flatten (place.left ++ c :: rest) := by
  by_cases atStart : place.left = []
  · rw [atStart, List.nil_append]
    intro cut
    obtain ⟨last, first⟩ := cut
    have feed : c = '\n' := by simpa using first
    exact alone ⟨feed, stands.afterReturn_iff.mpr ⟨atStart, last⟩⟩
  · exact place.unbroken_left.apart_append atStart _ _

/-- A break that completes no pair ends the line at the cursor, which counts on behind it. -/
theorem not_lands_insertChar? (stands : editor.At place) {c : Char} (breaks : isLineBreak c = true)
    (alone : ¬ (c = '\n' ∧ editor.AfterReturn)) : ¬ Lands (editor.insertChar? c) := by
  obtain ⟨ending, later, shape, isBreak, apart⟩ := exists_isBreak breaks place.back
  have flat := lines_flatten later
  -- The typed break may take a line feed behind it along; either way the line ends before it.
  let next : Place :=
    { before := place.before
      left := place.left
      right := []
      ending := ending
      after := lines later
      leads := by
        rw [flat, List.append_nil, List.append_assoc, ← shape]
        exact place.leads.replace (stands.apart_typed alone _)
      unbroken := by
        rw [List.append_nil]
        exact place.unbroken_left
      closes := .more isBreak (by rwa [flat]) (lined_lines later) }
  have text : next.text = place.front ++ [c] ++ place.back := by
    simp [next, Place.text, Place.line, Place.front, flat, shape]
  rw [insertChar?, stands.lands_insert?_iff text stands.line, stands.column]
  exact Nat.not_succ_le_self _

/-- The place of the cursor after a line feed that completes a pair. -/
theorem exists_completed (stands : editor.At place) (behind : editor.AfterReturn) :
    ∃ next : Place, next.text = place.front ++ ['\n'] ++ place.back ∧
      next.before.length = place.before.length ∧ next.after = place.after ∧
      next.left.length + next.right.length = place.left.length + place.right.length := by
  obtain ⟨atStart, last⟩ := stands.afterReturn_iff.mp behind
  have lined := place.closes.lined place.unbroken
  obtain ⟨next, text, before, line, after, _⟩ :=
    Place.exists_of_return place.leads last lined (Nat.zero_le _)
  refine ⟨next, ?_, before, after, ?_⟩
  · simp [text, Place.front, Place.back, atStart]
  · rw [← next.length_line_sub, ← place.length_line_sub, line]
    rfl

/-- A line feed typed as a character that completes a pair stays before a line with text. -/
theorem lands_insertChar?_feed_iff (stands : editor.At place) (behind : editor.AfterReturn) :
    Lands (editor.insertChar? '\n') ↔ editor.buffer.lineLength? editor.cursor.line ≠ some 0 := by
  obtain ⟨next, text, before, _, length⟩ := exists_completed stands behind
  have column : editor.cursor.column = 0 := by
    rw [stands.column, (stands.afterReturn_iff.mp behind).1]
    rfl
  rw [insertChar?, stands.lands_insert?_iff text (stands.line.trans before.symm), length, column,
    stands.lineLength?, Ne, Option.some.injEq]
  omega

theorem lands_insertChar?_iff (stands : editor.At place) (c : Char) :
    Lands (editor.insertChar? c) ↔ ¬ editor.Strays (.char c) := by
  by_cases breaks : isLineBreak c = true
  · by_cases completes : c = '\n' ∧ editor.AfterReturn
    · obtain ⟨rfl, behind⟩ := completes
      rw [lands_insertChar?_feed_iff stands behind]
      simp [strays_char_iff, breaks, behind]
    · have strays : editor.Strays (.char c) := by
        refine ⟨breaks, ?_⟩
        intro kept
        exact completes ⟨kept.1, kept.2.1⟩
      simp [strays, not_lands_insertChar? stands breaks completes]
  · have unbroken : Unbroken [c] := by simpa using breaks
    have lands : Lands (editor.insertChar? c) := lands_insert?_of_unbroken stands unbroken rfl
    simp [lands, strays_char_iff, breaks]

/-- A line that is broken where that completes no pair becomes two. -/
theorem lands_insertNewline?_of_alone (stands : editor.At place) (alone : ¬ editor.AfterReturn) :
    Lands editor.insertNewline? := by
  have leads : Leads (place.before ++ [place.left ++ ['\n']]) [] := by
    rw [leads_concat, List.append_nil]
    refine ⟨place.leads.replace (stands.apart_typed (fun typed => alone typed.2) []), ?_, ?_⟩
    · exact ⟨place.left, ['\n'], rfl, place.unbroken_left, .single rfl⟩
    · simp [Apart]
  have unbroken : Unbroken ([] ++ place.right) := place.unbroken_right
  obtain ⟨next, text, before, _⟩ := Place.exists_of_parts leads unbroken place.closes
  have split : next.text = place.front ++ ['\n'] ++ place.back := by
    simp [text, Place.front, Place.back]
  have line : editor.cursor.line + 1 = next.before.length := by
    rw [before, List.length_append, stands.line]
    rfl
  rw [insertNewline?, stands.lands_insert?_iff split line]
  exact Nat.zero_le _

/-- A line feed that completes a pair makes no line: the cursor goes to the one below. -/
theorem lands_insertNewline?_completed_iff (stands : editor.At place)
    (behind : editor.AfterReturn) : Lands editor.insertNewline? ↔ place.after ≠ [] := by
  obtain ⟨next, text, before, after, _⟩ := exists_completed stands behind
  constructor
  · intro lands last
    have inside := stands.lineCount_of_lands text lands
    rw [stands.line, before, after, last, List.length_nil] at inside
    omega
  · intro more
    rw [← after] at more
    obtain ⟨below, isAbove, _⟩ := next.exists_below more
    have line : editor.cursor.line + 1 = below.before.length := by
      rw [isAbove.before, List.length_append, before, stands.line]
      rfl
    rw [insertNewline?, stands.lands_insert?_iff (isAbove.text.symm.trans text) line]
    exact Nat.zero_le _

theorem lands_insertNewline?_iff (stands : editor.At place) :
    Lands editor.insertNewline? ↔ ¬ editor.Strays .enter := by
  by_cases behind : editor.AfterReturn
  · have strays : editor.Strays .enter ↔ place.after = [] := by
      have count := Buffer.lineCount_of_place stands.text
      have line := stands.line
      rw [← List.length_eq_zero_iff]
      simp only [strays_enter_iff, behind, true_and]
      omega
    rw [lands_insertNewline?_completed_iff stands behind, strays]
  · simp [lands_insertNewline?_of_alone stands behind, strays_enter_iff, behind]

theorem lands_insertTab?_iff (stands : editor.At place) :
    Lands editor.insertTab? ↔ ¬ editor.Strays .tab := by
  have lands := lands_insert?_of_unbroken stands (unbroken_spaces editor.tabWidth)
    (by rw [List.length_replicate])
  rw [insertTab?, strays_tab_iff]
  split
  · next wide => simp [wide, Lands]
  · next narrow => simp [narrow, lands]

/-- A cursor behind whole lines and the beginning of a line is in range, whether or not a pair has
come together between them. -/
theorem lands_of_parts {changed : Editor} {before after : List Text}
    {left right ending other : Text} (leads : Leads before other)
    (unbroken : Unbroken (left ++ right)) (closes : Closes ending after)
    (text : changed.buffer.text = before.flatten ++ (left ++ right ++ ending ++ after.flatten))
    (line : changed.cursor.line = before.length) (column : changed.cursor.column = left.length) :
    Lands (some changed) := by
  obtain ⟨next, sameText, sameLine, sameColumn⟩ := Place.exists_of_parts leads unbroken closes
  have stands : changed.At next :=
    { text := text.trans sameText.symm
      line := line.trans sameLine.symm
      column := column.trans sameColumn.symm }
  exact ⟨changed, rfl, stands.inRange⟩

theorem lands_deleteBackward? (stands : editor.At place) : Lands editor.deleteBackward? := by
  rcases place.before_cases with
    ⟨left, c, shape⟩ | ⟨atStart, above, isAbove, atEnd⟩ | ⟨atStart, first⟩
  · have whole : Unbroken (left ++ place.right) := by
      have unbroken := place.unbroken_left
      rw [shape, unbroken_append] at unbroken
      simp [unbroken.1, place.unbroken_right]
    rw [stands.deleteBackward?_of_concat shape]
    refine lands_of_parts place.leads whole place.closes ?_ rfl rfl
    simp [edited, refresh, Place.back]
  · have whole : Unbroken (above.left ++ place.right) := by
      simp [above.unbroken_left, place.unbroken_right]
    rw [stands.deleteBackward?_of_isAbove isAbove atEnd atStart]
    refine lands_of_parts above.leads whole place.closes ?_ rfl rfl
    simp [edited, refresh, Place.front, Place.back]
  · rw [stands.deleteBackward?_of_start atStart first]
    exact stands.reaches_self.lands

theorem lands_deleteForward? (stands : editor.At place) : Lands editor.deleteForward? := by
  rcases place.behind_cases with
    ⟨c, right, shape⟩ | ⟨atEnd, below, isAbove, atStart⟩ | ⟨atEnd, last⟩
  · have whole : Unbroken (place.left ++ right) := by
      have unbroken := place.unbroken_right
      rw [shape, unbroken_cons] at unbroken
      simp [unbroken.2, place.unbroken_left]
    rw [stands.deleteForward?_of_cons shape]
    refine lands_of_parts place.leads whole place.closes ?_ rfl rfl
    simp [edited, refresh, Place.front]
  · have whole : Unbroken (place.left ++ below.right) := by
      simp [place.unbroken_left, below.unbroken_right]
    rw [stands.deleteForward?_of_isAbove isAbove atEnd atStart]
    refine lands_of_parts place.leads whole below.closes ?_ rfl rfl
    simp [edited, refresh, Place.front, Place.back]
  · rw [stands.deleteForward?_of_end atEnd last]
    exact ⟨_, rfl, stands.inRange.of_same rfl rfl⟩

/-- A key by itself keeps the cursor in range exactly if it does not stray. -/
theorem lands_press?_iff (inRange : editor.InRange) (key : Key) :
    Lands (editor.press? key) ↔ ¬ editor.Strays key := by
  obtain ⟨place, stands⟩ := inRange.exists_place
  cases key with
  | char c => exact lands_insertChar?_iff stands c
  | enter => exact lands_insertNewline?_iff stands
  | tab => exact lands_insertTab?_iff stands
  | backspace => exact iff_of_true (lands_deleteBackward? stands) id
  | delete => exact iff_of_true (lands_deleteForward? stands) id
  | left => exact iff_of_true (left?_reaches stands).lands id
  | right => exact iff_of_true (right?_reaches stands).lands id
  | up => exact iff_of_true (up?_reaches stands).lands id
  | down => exact iff_of_true (down?_reaches stands).lands id
  | home => exact iff_of_true (lineStart_reaches stands).lands id
  | lineEnd => exact iff_of_true (lineEnd?_reaches stands).lands id
  | _ => exact iff_of_true stands.reaches_self.lands id

/-- An event keeps the cursor in range exactly if it types no key that strays. -/
theorem handle?_inRange_iff (inRange : editor.InRange) (disk : Disk) (event : Event) :
    (∃ written next, editor.handle? disk event = some (written, next) ∧ next.InRange) ↔
      ∀ key, event.typed = some key → ¬ editor.Strays key := by
  cases event with
  | key event =>
      by_cases released : event.action = .released
      · have typed : (Event.key event).typed = none := if_pos (Or.inl released)
        rw [handle?, if_pos released, typed]
        exact iff_of_true ⟨disk, editor, rfl, inRange⟩ (by simp)
      let quiet := { editor with message := none }
      by_cases control : event.modifiers.control = true
      · have typed : (Event.key event).typed = none := if_pos (Or.inr control)
        obtain ⟨text, cursor, _⟩ := control_frame disk quiet event.key
        rw [handle?, if_neg released, typed]
        dsimp only
        rw [if_pos control]
        exact iff_of_true ⟨_, _, rfl, inRange.of_same text cursor⟩ (by simp)
      · have typed : (Event.key event).typed = some event.key :=
          if_neg (not_or.mpr ⟨released, control⟩)
        have quietRange : quiet.InRange := inRange.of_same rfl rfl
        have step : Lands (quiet.press? event.key) ↔ ¬ editor.Strays event.key :=
          lands_press?_iff quietRange event.key
        rw [handle?, if_neg released, typed]
        dsimp only
        rw [if_neg control]
        simp only [Option.some.injEq, forall_eq']
        rw [← step]
        constructor
        · rintro ⟨written, next, success, reached⟩
          obtain ⟨found, pressed, same⟩ := Option.map_eq_some_iff.mp success
          obtain rfl := congrArg Prod.snd same
          exact ⟨found, pressed, reached⟩
        · rintro ⟨next, pressed, reached⟩
          rw [pressed]
          exact ⟨disk, next, rfl, reached⟩
  | _ => exact iff_of_true ⟨disk, editor, rfl, inRange⟩ (by simp [Event.typed])

/-- Events answered one after another are those in front and then the rest. -/
theorem handleAll?_append (disk : Disk) (editor : Editor) (first second : List Event) :
    editor.handleAll? disk (first ++ second) =
      (editor.handleAll? disk first).bind fun reached =>
        reached.2.handleAll? reached.1 second := by
  induction first generalizing disk editor with
  | nil => rfl
  | cons event rest ih =>
      rw [List.cons_append, handleAll?, handleAll?]
      cases editor.handle? disk event with
      | none => rfl
      | some reached => exact ih reached.1 reached.2

theorem handleAll?_singleton (disk : Disk) (editor : Editor) (event : Event) :
    editor.handleAll? disk [event] = editor.handle? disk event := by
  rw [handleAll?]
  cases editor.handle? disk event <;> rfl

theorem ofBuffer_inRange (buffer : Buffer) (tabWidth : Nat) :
    (ofBuffer buffer tabWidth).InRange := by
  have lined := lined_lines buffer.text
  obtain ⟨first, rest, shape⟩ := List.exists_cons_of_ne_nil lined.ne_nil
  have present : buffer.lineLength? 0 = some (first.length - breakLength first) := by
    rw [Buffer.lineLength?, Buffer.line?, shape]
    rfl
  exact ⟨List.length_pos_iff.mpr lined.ne_nil, _, present, Nat.zero_le _⟩

/-- From the start of any text, every event of a run is answered with the cursor in range exactly
if no event types a key that strays from where the surface then is. -/
theorem ofBuffer_inRange_always_iff (disk : Disk) (buffer : Buffer) (tabWidth : Nat)
    (events : List Event) :
    (∀ done, done <+: events → ∃ written editor,
        (ofBuffer buffer tabWidth).handleAll? disk done = some (written, editor) ∧
          editor.InRange) ↔
      ∀ done event, done ++ [event] <+: events → ∀ written editor,
        (ofBuffer buffer tabWidth).handleAll? disk done = some (written, editor) →
          ∀ key, event.typed = some key → ¬ editor.Strays key := by
  -- Every prefix gives the step at its end, and the steps give every prefix by induction.
  constructor
  · intro always done event step written editor reached
    obtain ⟨_, _, again, inRange⟩ := always done ((List.prefix_append _ _).trans step)
    rw [reached] at again
    cases again
    have next := always (done ++ [event]) step
    rw [handleAll?_append, reached, Option.bind_some, handleAll?_singleton] at next
    exact (handle?_inRange_iff inRange written event).mp next
  · intro stays done
    induction done using List.reverseRecOn with
    | nil =>
        intro _
        exact ⟨disk, _, rfl, ofBuffer_inRange buffer tabWidth⟩
    | append_singleton done event ih =>
        intro step
        obtain ⟨written, editor, reached, inRange⟩ := ih ((List.prefix_append _ _).trans step)
        have keys := stays done event step written editor reached
        rw [handleAll?_append, reached, Option.bind_some, handleAll?_singleton]
        exact (handle?_inRange_iff inRange written event).mpr keys

/-- Breaking the last line behind a lone carriage return puts the cursor on a line that is not
there, and the next key finds no line to measure. -/
theorem not_ofBuffer_inRange_always :
    ¬ ∀ (disk : Disk) (buffer : Buffer) (tabWidth : Nat) (events : List Event),
      ∃ written editor,
        (ofBuffer buffer tabWidth).handleAll? disk events = some (written, editor) ∧
          editor.InRange := by
  intro always
  obtain ⟨written, editor, success, _⟩ := always Disk.empty (Buffer.ofText ['\r']) 2
    [.press .down, .press .enter, .press .right]
  have fails : (ofBuffer (Buffer.ofText ['\r']) 2).handleAll? Disk.empty
      [.press .down, .press .enter, .press .right] = none := by
    decide
  rw [fails] at success
  cases success

end Editor

end Dabara
