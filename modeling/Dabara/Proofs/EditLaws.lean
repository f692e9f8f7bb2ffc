import Dabara.Proofs.CursorRange
import Dabara.Proofs.ScreenRows

set_option autoImplicit false

namespace Dabara

/-- The place behind text that is typed into its line. The lines before it stay as they are, also
behind a lone carriage return: what is typed is no line feed. -/
def Place.typed (place : Place) (added : Text) (unbroken : Unbroken added) : Place where
  before := place.before
  left := place.left ++ added
  right := place.right
  ending := place.ending
  after := place.after
  leads := by
    by_cases nothing : added = []
    · rw [nothing, List.append_nil]
      exact place.leads
    · have whole : Unbroken (place.left ++ added) := by
        simp [unbroken, place.unbroken_left]
      apply place.leads.replace
      rw [List.append_assoc, List.append_assoc]
      apply whole.apart_append
      simp [nothing]
  unbroken := by simp [unbroken, place.unbroken_left, place.unbroken_right]
  closes := place.closes

theorem Place.text_typed (place : Place) {added : Text} (unbroken : Unbroken added) :
    (place.typed added unbroken).text = place.front ++ added ++ place.back := by
  simp [text_eq, front, back, typed]

namespace Editor

def AtTextEnd (editor : Editor) : Prop :=
  ∃ start, editor.buffer.lineStart? editor.cursor.line = some start ∧
    start + editor.cursor.column = editor.buffer.text.length

variable {editor : Editor} {place : Place}

theorem At.atTextEnd_iff (stands : editor.At place) : editor.AtTextEnd ↔ place.back = [] := by
  rw [AtTextEnd, stands.line, stands.column, Buffer.lineStart?_of_place stands.text, stands.text]
  simp only [Option.some.injEq, exists_eq_left']
  rw [← Place.point, place.text_eq, List.length_append, place.length_front,
    ← List.length_eq_zero_iff]
  omega

theorem Fresh.refresh_eq (fresh : editor.Fresh) : editor.refresh = editor := by
  unfold refresh
  rw [← fresh]

/-- What stands where the cursor is has been taken out: the text is shorter, the cursor is where it
was, and the highlights are those of the text. -/
structure Deleted (editor next : Editor) : Prop where
  shorter : next.buffer.text.length < editor.buffer.text.length
  cursor : next.cursor = editor.cursor
  dirty : next.buffer.dirty = true
  fresh : next.Fresh

theorem At.deleted_edited (stands : editor.At place) {unit rest : Text}
    (back : place.back = unit ++ rest) (nonempty : unit ≠ []) :
    editor.Deleted (editor.edited (place.front ++ rest) place.cursor) where
  shorter := by
    have positive := List.length_pos_iff.mpr nonempty
    rw [stands.text, place.text_eq, back]
    simp only [edited, refresh, List.length_append]
    omega
  cursor := stands.cursor.symm
  dirty := rfl
  fresh := rfl

/-- A character at the cursor can be taken out from both sides. -/
theorem At.delete_of_cons (stands : editor.At place) {right : Text} {c : Char}
    (shape : place.right = c :: right) :
    ∃ next, editor.deleteForward? = some next ∧
      editor.right?.bind deleteBackward? = some next ∧ editor.Deleted next := by
  let behind := place.resplit (place.left ++ [c]) right (by simp [shape])
  have moved : (editor.moveTo editor.cursor.line (editor.cursor.column + 1)).At behind :=
    { text := stands.text.trans (place.text_resplit _).symm
      line := stands.line
      column := by
        show editor.cursor.column + 1 = (place.left ++ [c]).length
        rw [stands.column, List.length_append, List.length_singleton] }
  have back : place.back = [c] ++ behind.back := by
    simp [Place.back, behind, Place.resplit, shape]
  refine ⟨_, stands.deleteForward?_of_cons shape, ?_,
    stands.deleted_edited back (List.cons_ne_nil c [])⟩
  rw [stands.right?_of_cons shape, Option.bind_some, moved.deleteBackward?_of_concat rfl]
  rfl

/-- The break at the cursor can be taken out from both sides. -/
theorem At.delete_of_isAbove (stands : editor.At place) {below : Place}
    (isAbove : place.IsAbove below) (atEnd : place.right = []) (atStart : below.left = []) :
    ∃ next, editor.deleteForward? = some next ∧
      editor.right?.bind deleteBackward? = some next ∧ editor.Deleted next := by
  have moved : (editor.moveTo (editor.cursor.line + 1) 0).At below :=
    { text := stands.text.trans isAbove.text
      line := (stands.lineLength?_below isAbove).1
      column := by
        rw [atStart]
        rfl }
  refine ⟨_, stands.deleteForward?_of_isAbove isAbove atEnd atStart, ?_,
    stands.deleted_edited (isAbove.back atEnd atStart) isAbove.isBreak.ne_nil⟩
  rw [stands.right?_of_isAbove isAbove atEnd, Option.bind_some,
    moved.deleteBackward?_of_isAbove isAbove atEnd atStart]
  rfl

/-- To delete is to go right and take out what is before the cursor. At the end of the text there
is nothing to delete, and nothing happens. -/
theorem delete_is_right_then_backspace (fresh : editor.Fresh) (inRange : editor.InRange) :
    (¬ editor.AtTextEnd → ∃ next, editor.deleteForward? = some next ∧
      editor.right?.bind deleteBackward? = some next ∧ editor.Deleted next) ∧
    (editor.AtTextEnd → editor.deleteForward? = some editor) := by
  obtain ⟨place, stands⟩ := inRange.exists_place
  rw [stands.atTextEnd_iff]
  rcases place.behind_cases with
    ⟨c, right, shape⟩ | ⟨atEnd, below, isAbove, atStart⟩ | ⟨atEnd, last⟩
  · have present : place.back ≠ [] := by simp [Place.back, shape]
    exact ⟨fun _ => stands.delete_of_cons shape, fun none => absurd none present⟩
  · have present : place.back ≠ [] := by
      simp [isAbove.back atEnd atStart, isAbove.isBreak.ne_nil]
    exact ⟨fun _ => stands.delete_of_isAbove isAbove atEnd atStart,
      fun none => absurd none present⟩
  · have none := place.back_eq_nil atEnd last
    refine ⟨fun more => absurd none more, fun _ => ?_⟩
    rw [stands.deleteForward?_of_end atEnd last, fresh.refresh_eq]

/-- Between the halves of a pair stands one letter. Taking it out makes one break of the two. -/
theorem delete_is_right_then_backspace_pair :
    ∃ editor next : Editor, editor.buffer.text = ['\r', 'a', '\n'] ∧ editor.cursor = ⟨1, 0⟩ ∧
      editor.Fresh ∧ editor.InRange ∧ ¬ editor.AtTextEnd ∧
      editor.deleteForward? = some next ∧ editor.right?.bind deleteBackward? = some next ∧
      editor.Deleted next ∧ next.buffer.text = ['\r', '\n'] := by
  let editor : Editor := { ofBuffer (Buffer.ofText ['\r', 'a', '\n']) 2 with cursor := ⟨1, 0⟩ }
  have fresh : editor.Fresh := rfl
  have inRange : editor.InRange := ⟨by decide, 1, rfl, by decide⟩
  have inside : ¬ editor.AtTextEnd := by
    rintro ⟨start, found, atEnd⟩
    obtain rfl : 1 = start := Option.some.inj found
    exact absurd atEnd (by decide)
  obtain ⟨next, deleted, same, shape⟩ := (delete_is_right_then_backspace fresh inRange).1 inside
  have text : editor.deleteForward?.map (·.buffer.text) = some ['\r', '\n'] := by decide
  rw [deleted] at text
  exact ⟨editor, next, rfl, rfl, fresh, inRange, inside, deleted, same, shape,
    Option.some.inj text⟩

def times? (step : Editor → Option Editor) : Nat → Editor → Option Editor
  | 0, editor => some editor
  | count + 1, editor => (step editor).bind (times? step count)

@[simp] theorem times?_one (step : Editor → Option Editor) (editor : Editor) :
    editor.times? step 1 = step editor :=
  Option.bind_fun_some (step editor)

theorem times?_succ (step : Editor → Option Editor) (count : Nat) (editor : Editor) :
    editor.times? step (count + 1) = (step editor).bind (times? step count) := rfl

def marked (editor : Editor) : Editor :=
  { editor with buffer := { editor.buffer with dirty := true } }

theorem At.insert?_typed (stands : editor.At place) {added : Text} (unbroken : Unbroken added) :
    editor.insert? added editor.cursor.line (editor.cursor.column + added.length) =
      some (editor.edited (place.typed added unbroken).text
        (place.typed added unbroken).cursor) := by
  rw [insert?, stands.line, stands.column, Buffer.insert?_of_place stands.text, Option.map_some,
    place.text_typed unbroken, ← List.length_append]
  rfl

/-- Text that was typed is taken out character by character, from the last one on. -/
theorem times?_deleteBackward?_typed (editor : Editor) (place : Place) {added : Text}
    (unbroken : Unbroken added) :
    (editor.edited (place.typed added unbroken).text (place.typed added unbroken).cursor).times?
        deleteBackward? added.length = some (editor.edited place.text place.cursor) := by
  induction added using List.reverseRecOn with
  | nil =>
      have text : (place.typed [] unbroken).text = place.text := by
        rw [place.text_typed, List.append_nil, place.text_eq]
      have cursor : (place.typed [] unbroken).cursor = place.cursor := by
        simp [Place.typed, Place.cursor]
      rw [text, cursor]
      rfl
  | append_singleton added c ih =>
      have front : Unbroken added := ((unbroken_append _ _).mp unbroken).1
      let typed := place.typed (added ++ [c]) unbroken
      have stands : (editor.edited typed.text typed.cursor).At typed := ⟨rfl, rfl, rfl⟩
      have shape : typed.left = place.left ++ added ++ [c] := (List.append_assoc _ _ _).symm
      have text : place.before.flatten ++ (place.left ++ added) ++ place.back =
          (place.typed added front).text := by
        simp [Place.text_typed, Place.front]
      have removed := stands.deleteBackward?_of_concat shape
      rw [List.length_append, List.length_singleton, times?_succ, removed, Option.bind_some]
      rw [← ih front, ← text]
      rfl

theorem Fresh.edited_eq (fresh : editor.Fresh) (stands : editor.At place) :
    editor.edited place.text place.cursor = editor.marked := by
  rw [← stands.text, ← stands.cursor, edited, refresh, marked]
  dsimp only
  rw [← fresh]

theorem At.undoes (stands : editor.At place) (fresh : editor.Fresh) {added : Text}
    (unbroken : Unbroken added) :
    ∃ typed, editor.insert? added editor.cursor.line (editor.cursor.column + added.length) =
        some typed ∧ typed.times? deleteBackward? added.length = some editor.marked := by
  refine ⟨_, stands.insert?_typed unbroken, ?_⟩
  rw [times?_deleteBackward?_typed, fresh.edited_eq stands]

/-- What is typed into a line can be taken out before the cursor again, and then all but the mark
of the text is as it was: a character by one step, and a tab that can be typed by as many steps as
it is wide. -/
theorem backspace_undoes_typing (fresh : editor.Fresh) (inRange : editor.InRange) :
    (∀ c, isLineBreak c = false → ∃ typed, editor.insertChar? c = some typed ∧
      typed.deleteBackward? = some editor.marked) ∧
    (editor.tabWidth < textLimit → ∃ typed, editor.insertTab? = some typed ∧
      typed.times? deleteBackward? editor.tabWidth = some editor.marked) := by
  obtain ⟨place, stands⟩ := inRange.exists_place
  constructor
  · intro c inside
    have unbroken : Unbroken [c] := by simp [inside]
    obtain ⟨typed, success, undone⟩ := stands.undoes fresh unbroken
    refine ⟨typed, success, ?_⟩
    rwa [List.length_singleton, times?_one] at undone
  · intro narrow
    rw [insertTab?, if_neg (Nat.not_le.mpr narrow)]
    have undoes := stands.undoes fresh (unbroken_spaces editor.tabWidth)
    rwa [List.length_replicate] at undoes

/-- A letter and a tab typed directly behind a lone carriage return. -/
theorem backspace_undoes_typing_return :
    ∃ editor : Editor, editor.buffer.text = ['a', '\r'] ∧ editor.cursor = ⟨1, 0⟩ ∧
      editor.tabWidth = 3 ∧ editor.Fresh ∧ editor.InRange ∧
      (∃ typed, editor.insertChar? 'b' = some typed ∧ typed.deleteBackward? = some editor.marked) ∧
      ∃ typed, editor.insertTab? = some typed ∧
        typed.times? deleteBackward? 3 = some editor.marked := by
  let editor : Editor := { ofBuffer (Buffer.ofText ['a', '\r']) 3 with cursor := ⟨1, 0⟩ }
  have fresh : editor.Fresh := rfl
  have inRange : editor.InRange := ⟨by decide, 0, rfl, by decide⟩
  obtain ⟨letter, tab⟩ := backspace_undoes_typing fresh inRange
  exact ⟨editor, rfl, rfl, rfl, fresh, inRange, letter 'b' rfl, tab (by decide)⟩

/-- Tabs of any width at all are not typed, so there is nothing to take out again. -/
theorem not_backspace_undoes_typing_wide :
    ¬ ∀ editor : Editor, editor.Fresh → editor.InRange →
      (∀ c, isLineBreak c = false → ∃ typed, editor.insertChar? c = some typed ∧
        typed.deleteBackward? = some editor.marked) ∧
      ∃ typed, editor.insertTab? = some typed ∧
        typed.times? deleteBackward? editor.tabWidth = some editor.marked := by
  intro always
  let editor := ofBuffer Buffer.empty 9223372036854775808
  obtain ⟨_, typed, success, _⟩ := always editor rfl (ofBuffer_inRange _ _)
  have fails : editor.insertTab? = none := rfl
  rw [fails] at success
  cases success

end Editor

end Dabara
