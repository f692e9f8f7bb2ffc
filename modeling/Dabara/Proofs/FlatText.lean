import Dabara.Editor.Event
import Dabara.Proofs.Place

set_option autoImplicit false

namespace Dabara

/-- Characters in the break that a text begins with. -/
def leadingBreak : Text → Nat
  | '\r' :: '\n' :: _ => 2
  | c :: _ => if isLineBreak c then 1 else 0
  | [] => 0

/-- The key that an event types: one that goes down without the control key. -/
def Event.typed : Event → Option Key
  | .key event =>
      if event.action = .released ∨ event.modifiers.control = true then none else some event.key
  | _ => none

/-- A text with an insertion point, the number of characters before it. -/
structure FlatText where
  text : Text
  point : Nat
  deriving DecidableEq

namespace FlatText

variable (flat : FlatText)

def before : Text :=
  flat.text.take flat.point

def behind : Text :=
  flat.text.drop flat.point

/-- Characters from the nearest break before the point to the point. -/
def column : Nat :=
  (flat.before.reverse.takeWhile (!isLineBreak ·)).length

/-- Characters from the point to the nearest break behind it. -/
def ahead : Nat :=
  (flat.behind.takeWhile (!isLineBreak ·)).length

/-- Length of the whole break before the point, or one for any other character. -/
def unitBefore : Nat :=
  max 1 (breakLength flat.before)

/-- Length of the whole break behind the point, or one for any other character. -/
def unitBehind : Nat :=
  max 1 (leadingBreak flat.behind)

def insert (added : Text) : FlatText :=
  ⟨flat.before ++ added ++ flat.behind, flat.point + added.length⟩

/-- Takes out the character or break before the point. -/
def backspace : FlatText :=
  if flat.point = 0 then flat
  else ⟨flat.text.take (flat.point - flat.unitBefore) ++ flat.behind, flat.point - flat.unitBefore⟩

/-- Takes out the character or break behind the point. -/
def delete : FlatText :=
  if flat.behind = [] then flat
  else ⟨flat.before ++ flat.behind.drop flat.unitBehind, flat.point⟩

/-- Moves over the character or break before the point. -/
def left : FlatText :=
  if flat.point = 0 then flat else { flat with point := flat.point - flat.unitBefore }

/-- Moves over the character or break behind the point. -/
def right : FlatText :=
  if flat.behind = [] then flat else { flat with point := flat.point + flat.unitBehind }

def home : FlatText :=
  { flat with point := flat.point - flat.column }

def lineEnd : FlatText :=
  { flat with point := flat.point + flat.ahead }

/-- Moves to the line before, at the same column or at the end of a shorter line. -/
def up : FlatText :=
  if flat.home.point = 0 then flat
  else
    let above := flat.home.left
    { flat with point := above.home.point + min flat.column above.column }

/-- Moves to the next line, at the same column or at the end of a shorter line. -/
def down : FlatText :=
  if flat.lineEnd.behind = [] then flat
  else
    let below := flat.lineEnd.right
    { flat with point := below.point + min flat.column below.ahead }

def press (tabWidth : Nat) : Key → FlatText
  | .char c => flat.insert [c]
  | .enter => flat.insert ['\n']
  | .tab => flat.insert (List.replicate tabWidth ' ')
  | .backspace => flat.backspace
  | .delete => flat.delete
  | .left => flat.left
  | .right => flat.right
  | .up => flat.up
  | .down => flat.down
  | .home => flat.home
  | .lineEnd => flat.lineEnd
  | _ => flat

/-- Answers an event. What types no key leaves text and point alone. -/
def handle (tabWidth : Nat) (event : Event) : FlatText :=
  match event.typed with
  | some key => flat.press tabWidth key
  | none => flat

def handleAll (tabWidth : Nat) (events : List Event) : FlatText :=
  events.foldl (fun flat event => flat.handle tabWidth event) flat

@[simp] theorem text_left : flat.left.text = flat.text := by
  unfold left
  split <;> rfl

@[simp] theorem text_right : flat.right.text = flat.text := by
  unfold right
  split <;> rfl

@[simp] theorem text_up : flat.up.text = flat.text := by
  unfold up
  split <;> rfl

@[simp] theorem text_down : flat.down.text = flat.text := by
  unfold down
  split <;> rfl

@[simp] theorem text_home : flat.home.text = flat.text :=
  rfl

@[simp] theorem text_lineEnd : flat.lineEnd.text = flat.text :=
  rfl

end FlatText

theorem leadingBreak_of_inside {c : Char} (inside : isLineBreak c = false) (rest : Text) :
    leadingBreak (c :: rest) = 0 := by
  unfold leadingBreak
  split
  · next shape =>
      rw [(List.cons.inj shape).1] at inside
      exact absurd inside (by decide)
  · next shape =>
      rw [← (List.cons.inj shape).1, inside]
      rfl
  · rfl

/-- A text that begins with a break begins with that break's characters and no more. -/
theorem leadingBreak_append {ending rest : Text} (isBreak : IsBreak ending)
    (apart : Apart ending rest) : leadingBreak (ending ++ rest) = ending.length := by
  cases isBreak with
  | pair => rfl
  | @single c breaks =>
      rw [List.singleton_append, leadingBreak]
      · rw [breaks]
        rfl
      · rintro after rfl rfl
        exact apart ⟨rfl, rfl⟩

theorem IsBreak.takeWhile_append {ending : Text} (isBreak : IsBreak ending) (rest : Text) :
    (ending ++ rest).takeWhile (!isLineBreak ·) = [] := by
  cases isBreak with
  | pair => rfl
  | single breaks => simp [breaks]

theorem IsBreak.takeWhile_reverse {ending : Text} (isBreak : IsBreak ending) (front : Text) :
    (front ++ ending).reverse.takeWhile (!isLineBreak ·) = [] := by
  rw [List.reverse_append]
  cases isBreak with
  | pair => rfl
  | single breaks => simp [breaks]

theorem Leads.takeWhile_reverse {before : List Text} {rest : Text} (leads : Leads before rest) :
    before.flatten.reverse.takeWhile (!isLineBreak ·) = [] := by
  rcases List.eq_nil_or_concat before with rfl | ⟨front, line, rfl⟩
  · rfl
  · rw [List.concat_eq_append] at leads ⊢
    obtain ⟨body, ending, rfl, _, isBreak⟩ := leads.ended line (by simp)
    rw [List.flatten_append, List.flatten_singleton, ← List.append_assoc]
    exact isBreak.takeWhile_reverse _

theorem Unbroken.takeWhile_append {text : Text} (unbroken : Unbroken text) {rest : Text}
    (stops : rest.takeWhile (!isLineBreak ·) = []) :
    (text ++ rest).takeWhile (!isLineBreak ·) = text := by
  have inside : ∀ c ∈ text, (!isLineBreak c) = true := by
    intro c member
    rw [unbroken c member]
    rfl
  rw [List.takeWhile_append_of_pos inside, stops, List.append_nil]

namespace Place

/-- A place in the eyes of the flat machine. -/
def flat (place : Place) : FlatText :=
  ⟨place.text, place.point⟩

theorem flat_eq (place : Place) :
    place.flat = ⟨place.front ++ place.back, place.front.length⟩ := by
  rw [flat, text_eq, length_front]

theorem before_flat (place : Place) : place.flat.before = place.front :=
  place.take_text

theorem behind_flat (place : Place) : place.flat.behind = place.back :=
  place.drop_text

theorem column_flat (place : Place) : place.flat.column = place.left.length := by
  have unbroken : Unbroken place.left.reverse := by
    intro c member
    exact place.unbroken c (List.mem_append_left _ (List.mem_reverse.mp member))
  rw [FlatText.column, before_flat, front, List.reverse_append,
    unbroken.takeWhile_append place.leads.takeWhile_reverse, List.length_reverse]

theorem ahead_flat (place : Place) : place.flat.ahead = place.right.length := by
  have unbroken : Unbroken place.right := fun c member =>
    place.unbroken c (List.mem_append_right _ member)
  have stops : (place.ending ++ place.after.flatten).takeWhile (!isLineBreak ·) = [] := by
    have closes := place.closes
    generalize place.ending = ending, place.after = after at closes
    cases closes with
    | last => rfl
    | more isBreak _ _ => exact isBreak.takeWhile_append _
  rw [FlatText.ahead, behind_flat, back, List.append_assoc, unbroken.takeWhile_append stops]

/-- The break of a line does not continue what stands before it. -/
theorem apart_ending (place : Place) :
    Apart (place.before.flatten ++ (place.left ++ place.right)) place.ending := by
  intro cut
  obtain ⟨last, first⟩ := cut
  by_cases empty : place.left ++ place.right = []
  · rw [empty, List.append_nil] at last
    refine place.leads.apart ⟨last, ?_⟩
    rw [empty, List.nil_append, List.head?_append, first, Option.some_or]
  · have unbroken := place.unbroken
    generalize place.left ++ place.right = body at last empty unbroken
    exact unbroken.getLast?_ne rfl (by simpa [empty] using last)

theorem unitBefore_flat_of_concat {place : Place} {left : Text} {c : Char}
    (shape : place.left = left ++ [c]) : place.flat.unitBefore = 1 := by
  have inside : isLineBreak c = false := place.unbroken c (by simp [shape])
  rw [FlatText.unitBefore, before_flat, front, shape, ← List.append_assoc,
    breakLength_concat_of_inside inside]
  rfl

theorem unitBefore_flat_of_isAbove {above place : Place} (isAbove : IsAbove above place)
    (atStart : place.left = []) : place.flat.unitBefore = above.ending.length := by
  have positive := List.length_pos_iff.mpr isAbove.isBreak.ne_nil
  have before : place.front =
      above.before.flatten ++ (above.left ++ above.right) ++ above.ending := by
    simp [front, atStart, isAbove.before, line]
  rw [FlatText.unitBefore, before_flat, before,
    breakLength_append isAbove.isBreak above.apart_ending]
  omega

theorem unitBehind_flat_of_cons {place : Place} {right : Text} {c : Char}
    (shape : place.right = c :: right) : place.flat.unitBehind = 1 := by
  have inside : isLineBreak c = false := place.unbroken c (by simp [shape])
  rw [FlatText.unitBehind, behind_flat, back, shape, List.cons_append, List.cons_append,
    leadingBreak_of_inside inside]
  rfl

theorem unitBehind_flat_of_isAbove {place below : Place} (isAbove : IsAbove place below)
    (atEnd : place.right = []) : place.flat.unitBehind = place.ending.length := by
  have positive := List.length_pos_iff.mpr isAbove.isBreak.ne_nil
  have apart : Apart place.ending place.after.flatten := by
    have closes := place.closes
    have nonempty := isAbove.isBreak.ne_nil
    generalize place.ending = ending, place.after = after at closes nonempty
    cases closes with
    | last => exact absurd rfl nonempty
    | more _ apart _ => exact apart
  rw [FlatText.unitBehind, behind_flat, back, atEnd, List.nil_append,
    leadingBreak_append isAbove.isBreak apart]
  omega

/-- Two places between which some text stands, the one before it and the one behind it. -/
theorem left_flat {first second : Place} {unit : Text} (front : second.front = first.front ++ unit)
    (back : first.back = unit ++ second.back) (nonempty : unit ≠ [])
    (width : second.flat.unitBefore = unit.length) : second.flat.left = first.flat := by
  have positive := List.length_pos_iff.mpr nonempty
  have point : second.flat.point = first.front.length + unit.length := by
    rw [flat_eq, front, List.length_append]
  have same : second.flat.text = first.flat.text := by
    rw [flat_eq, flat_eq, front, back, List.append_assoc]
  have start : first.flat.point = first.front.length := by rw [flat_eq]
  rw [FlatText.left, if_neg (by omega), width, point, Nat.add_sub_cancel, same, ← start]

theorem right_flat {first second : Place} {unit : Text} (front : second.front = first.front ++ unit)
    (back : first.back = unit ++ second.back) (nonempty : unit ≠ [])
    (width : first.flat.unitBehind = unit.length) : first.flat.right = second.flat := by
  have present : ¬ first.flat.behind = [] := by
    rw [behind_flat, back]
    simp [nonempty]
  have point : second.flat.point = first.flat.point + unit.length := by
    rw [flat_eq, flat_eq, front, List.length_append]
  have same : second.flat.text = first.flat.text := by
    rw [flat_eq, flat_eq, front, back, List.append_assoc]
  rw [FlatText.right, if_neg present, width, ← point, ← same]

theorem insert_flat {place next : Place} {added : Text} (front : next.front = place.front ++ added)
    (back : next.back = place.back) : place.flat.insert added = next.flat := by
  have point : next.front.length = place.flat.point + added.length := by
    rw [front, List.length_append, length_front]
    rfl
  rw [FlatText.insert, before_flat, behind_flat, next.flat_eq, point, front, back]

/-- Taking out the text before a place leads to a place with the same text behind it. -/
theorem backspace_flat {place next : Place} {unit : Text} (front : place.front = next.front ++ unit)
    (back : next.back = place.back) (nonempty : unit ≠ [])
    (width : place.flat.unitBefore = unit.length) : place.flat.backspace = next.flat := by
  have positive := List.length_pos_iff.mpr nonempty
  have point : place.flat.point = next.front.length + unit.length := by
    rw [flat_eq, front, List.length_append]
  have text : place.flat.text = next.front ++ (unit ++ place.back) := by
    rw [flat_eq, front, List.append_assoc]
  rw [FlatText.backspace, if_neg (by omega), width, point, Nat.add_sub_cancel, text, List.take_left,
    behind_flat, next.flat_eq, back]

/-- Taking out the text behind a place leads to a place with the same text before it. -/
theorem delete_flat {place next : Place} {unit : Text} (front : next.front = place.front)
    (back : place.back = unit ++ next.back) (nonempty : unit ≠ [])
    (width : place.flat.unitBehind = unit.length) : place.flat.delete = next.flat := by
  have present : ¬ place.flat.behind = [] := by
    rw [behind_flat, back]
    simp [nonempty]
  have point : place.flat.point = next.front.length := by
    rw [flat_eq, front]
  rw [FlatText.delete, if_neg present, width, before_flat, behind_flat, back, List.drop_left, point,
    next.flat_eq, front]

theorem home_flat (place : Place) : place.flat.home = place.atStart.flat := by
  have point : place.flat.point - place.left.length = place.atStart.point := by
    simp [flat, Place.point, atStart, resplit]
  rw [FlatText.home, column_flat, point, flat, flat, atStart, text_resplit]

theorem lineEnd_flat (place : Place) : place.flat.lineEnd = place.atEnd.flat := by
  have point : place.flat.point + place.right.length = place.atEnd.point := by
    simp [flat, Place.point, atEnd, resplit, Nat.add_assoc]
  rw [FlatText.lineEnd, ahead_flat, point, flat, flat, atEnd, text_resplit]

theorem left_flat_of_isAbove {above place : Place} (isAbove : IsAbove above place)
    (atEnd : above.right = []) (atStart : place.left = []) : place.flat.left = above.flat :=
  left_flat (isAbove.front atEnd atStart) (isAbove.back atEnd atStart) isAbove.isBreak.ne_nil
    (unitBefore_flat_of_isAbove isAbove atStart)

theorem right_flat_of_isAbove {place below : Place} (isAbove : IsAbove place below)
    (atEnd : place.right = []) (atStart : below.left = []) : place.flat.right = below.flat :=
  right_flat (isAbove.front atEnd atStart) (isAbove.back atEnd atStart) isAbove.isBreak.ne_nil
    (unitBehind_flat_of_isAbove isAbove atEnd)

theorem up_flat {above place target : Place} (isAbove : IsAbove above place)
    (atEnd : above.right = []) (text : target.text = above.text)
    (before : target.before = above.before)
    (left : target.left.length = min place.left.length above.left.length) :
    place.flat.up = target.flat := by
  have crossed : place.atStart.flat.left = above.flat :=
    left_flat_of_isAbove isAbove.atStart atEnd rfl
  have notFirst : ¬ place.atStart.flat.point = 0 := by
    have nonempty : place.before.flatten ≠ [] :=
      place.leads.flatten_ne_nil (by simp [isAbove.before])
    have positive := List.length_pos_iff.mpr nonempty
    have point : place.atStart.flat.point = place.before.flatten.length := rfl
    omega
  have point : above.atStart.flat.point + min place.left.length above.left.length =
      target.point := by
    rw [Place.point, before, left]
    rfl
  rw [FlatText.up, home_flat, if_neg notFirst, crossed]
  dsimp only
  rw [home_flat, column_flat, column_flat, point, flat, flat, text, isAbove.text]

theorem up_flat_of_first {place : Place} (first : place.before = []) :
    place.flat.up = place.flat := by
  have point : place.atStart.flat.point = 0 := by
    simp [flat, Place.point, atStart, resplit, first]
  rw [FlatText.up, home_flat, if_pos point]

theorem down_flat {place below target : Place} (isAbove : IsAbove place below)
    (atStart : below.left = []) (text : target.text = below.text)
    (before : target.before = below.before)
    (left : target.left.length = min place.left.length below.right.length) :
    place.flat.down = target.flat := by
  have crossed : place.atEnd.flat.right = below.flat :=
    right_flat_of_isAbove isAbove.atEnd rfl atStart
  have notLast : ¬ place.atEnd.flat.behind = [] := by
    have nonempty : place.ending ≠ [] := isAbove.isBreak.ne_nil
    rw [behind_flat]
    simp [back, atEnd, resplit, nonempty]
  have point : below.flat.point + min place.left.length below.right.length = target.point := by
    simp [flat, Place.point, before, left, atStart]
  rw [FlatText.down, lineEnd_flat, if_neg notLast, crossed]
  dsimp only
  rw [column_flat, ahead_flat, point, flat, flat, text, isAbove.text]

theorem down_flat_of_last {place : Place} (last : place.after = []) :
    place.flat.down = place.flat := by
  have atEnd : place.atEnd.flat.behind = [] := by
    rw [behind_flat]
    simp [back, Place.atEnd, resplit, last, place.closes.ending_eq_nil last]
  rw [FlatText.down, lineEnd_flat, if_pos atEnd]

end Place

end Dabara
