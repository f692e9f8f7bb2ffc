import Dabara.Editor.Event

set_option autoImplicit false

namespace Dabara

namespace Buffer

/-- What an operation makes of a buffer: the same buffer, or one that is marked as changed; both
stay under the path. -/
structure Edits (old new : Buffer) : Prop where
  path : new.path = old.path
  marked : new = old ∨ new.dirty = true

variable {old new : Buffer} {line column : Nat}

theorem insert?_edits {added : Text} (success : old.insert? line column added = some new) :
    old.Edits new := by
  unfold insert? at success
  split at success
  · cases success
  · split at success
    · cases success
      exact ⟨rfl, Or.inr rfl⟩
    · cases success

theorem delete?_edits (success : old.delete? line column = some new) : old.Edits new := by
  unfold delete? at success
  split at success
  · extract_lets count at success
    split at success
    · cases success
      exact ⟨rfl, Or.inr rfl⟩
    · split at success
      · cases success
      · cases success
        exact ⟨rfl, Or.inl rfl⟩
  · cases success

theorem backspace?_edits {removed : Bool}
    (success : old.backspace? line column = some (removed, new)) : old.Edits new := by
  unfold backspace? at success
  split at success
  · cases success
  · dsimp only at success
    split at success
    · cases success
      exact ⟨rfl, Or.inl rfl⟩
    · split at success
      · cases success
      · split at success
        · cases success
          exact ⟨rfl, Or.inr rfl⟩
        · cases success

end Buffer

namespace Editor

variable {editor next : Editor}

/-- What a key does: it moves the cursor, or it edits the buffer and the text is classified anew. -/
inductive Pressed (editor : Editor) : Editor → Prop
  | moved (cursor : Cursor) : Pressed editor { editor with cursor }
  | edited (buffer : Buffer) (cursor : Cursor) (edits : editor.buffer.Edits buffer) :
      Pressed editor { editor with buffer, cursor }.refresh

theorem pressed_self (editor : Editor) : editor.Pressed editor :=
  .moved editor.cursor

theorem pressed_of_map {α : Type} {found : Option α} {change : α → Editor}
    (success : found.map change = some next)
    (keeps : ∀ value, found = some value → editor.Pressed (change value)) :
    editor.Pressed next := by
  obtain ⟨value, present, rfl⟩ := Option.map_eq_some_iff.mp success
  exact keeps value present

theorem insert?_pressed {added : Text} {line column : Nat}
    (success : editor.insert? added line column = some next) : editor.Pressed next := by
  apply pressed_of_map success
  intro buffer found
  exact .edited buffer ⟨line, column⟩ (Buffer.insert?_edits found)

theorem insertTab?_pressed (success : editor.insertTab? = some next) : editor.Pressed next := by
  unfold insertTab? at success
  split at success
  · cases success
  · exact insert?_pressed success

theorem deleteBackward?_pressed (success : editor.deleteBackward? = some next) :
    editor.Pressed next := by
  unfold deleteBackward? at success
  split at success
  · next length buffer _ removed =>
      obtain rfl := Option.some.inj success
      have edits := Buffer.backspace?_edits removed
      split
      · exact .edited buffer ⟨editor.cursor.line, editor.cursor.column - 1⟩ edits
      · exact .edited buffer ⟨editor.cursor.line - 1, length⟩ edits
  · obtain rfl := Option.some.inj success
    exact editor.pressed_self
  · cases success

theorem deleteForward?_pressed (success : editor.deleteForward? = some next) :
    editor.Pressed next := by
  apply pressed_of_map success
  intro buffer found
  exact .edited buffer editor.cursor (Buffer.delete?_edits found)

theorem left?_pressed (success : editor.left? = some next) : editor.Pressed next := by
  unfold left? at success
  split at success
  · obtain rfl := Option.some.inj success
    exact .moved _
  · split at success
    · exact pressed_of_map success fun length _ => .moved ⟨editor.cursor.line - 1, length⟩
    · obtain rfl := Option.some.inj success
      exact editor.pressed_self

theorem right?_pressed (success : editor.right? = some next) : editor.Pressed next := by
  apply pressed_of_map success
  intro length _
  split
  · exact .moved _
  · split
    · exact .moved _
    · exact editor.pressed_self

theorem toLine?_pressed {line : Nat} (success : editor.toLine? line = some next) :
    editor.Pressed next :=
  pressed_of_map success fun _ _ => .moved _

theorem down?_pressed (success : editor.down? = some next) : editor.Pressed next := by
  unfold down? at success
  split at success
  · cases success
  · exact toLine?_pressed success

theorem press?_pressed {key : Key} (success : editor.press? key = some next) :
    editor.Pressed next := by
  cases key with
  | char c => exact insert?_pressed success
  | enter => exact insert?_pressed success
  | tab => exact insertTab?_pressed success
  | backspace => exact deleteBackward?_pressed success
  | delete => exact deleteForward?_pressed success
  | left => exact left?_pressed success
  | right => exact right?_pressed success
  | up => exact toLine?_pressed success
  | down => exact down?_pressed success
  | lineEnd => exact pressed_of_map success fun _ _ => .moved _
  | home =>
      obtain rfl := Option.some.inj success
      exact .moved _
  | _ =>
      obtain rfl := Option.some.inj success
      exact editor.pressed_self

theorem Pressed.edits (pressed : editor.Pressed next) : editor.buffer.Edits next.buffer := by
  cases pressed with
  | moved cursor => exact ⟨rfl, Or.inl rfl⟩
  | edited buffer cursor edits => exact edits

end Editor

end Dabara
