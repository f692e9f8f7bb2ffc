set_option autoImplicit false

namespace Dabara

/-- Source text, output text and every part of them. -/
abbrev Text := List Char

/-- One more than the greatest number that counts or addresses anything. -/
def countLimit : Nat :=
  18446744073709551616

/-- Texts that are to hold so many bytes are not made. -/
def textLimit : Nat :=
  9223372036854775808

/-- Length of a text in UTF-8 bytes. -/
def byteLength : Text → Nat
  | [] => 0
  | c :: rest => c.utf8Size + byteLength rest

/-- The characters that lie wholly within the first `count` bytes. -/
def takeBytes : Nat → Text → Text
  | _, [] => []
  | count, c :: rest =>
      if c.utf8Size ≤ count then c :: takeBytes (count - c.utf8Size) rest else []

/-- What stands behind the characters that lie wholly within the first `count` bytes. -/
def dropBytes : Nat → Text → Text
  | _, [] => []
  | count, c :: rest =>
      if c.utf8Size ≤ count then dropBytes (count - c.utf8Size) rest else c :: rest

def sliceBytes (text : Text) (start stop : Nat) : Text :=
  takeBytes (stop - start) (dropBytes start text)

/-- The largest boundary of a text at or below an offset. -/
def floorBoundary : Text → Nat → Nat
  | [], _ => 0
  | c :: rest, offset =>
      if c.utf8Size ≤ offset then c.utf8Size + floorBoundary rest (offset - c.utf8Size) else 0

@[simp] theorem byteLength_nil : byteLength [] = 0 := rfl

@[simp] theorem byteLength_cons (c : Char) (rest : Text) :
    byteLength (c :: rest) = c.utf8Size + byteLength rest := rfl

@[simp] theorem byteLength_append (first second : Text) :
    byteLength (first ++ second) = byteLength first + byteLength second := by
  induction first with
  | nil => simp
  | cons c rest ih => simp [ih, Nat.add_assoc]

theorem takeBytes_append_dropBytes (count : Nat) (text : Text) :
    takeBytes count text ++ dropBytes count text = text := by
  induction text generalizing count with
  | nil => simp [takeBytes, dropBytes]
  | cons c rest ih =>
      by_cases fits : c.utf8Size ≤ count <;> simp [takeBytes, dropBytes, fits, ih]

theorem floorBoundary_eq_byteLength_takeBytes (text : Text) (offset : Nat) :
    floorBoundary text offset = byteLength (takeBytes offset text) := by
  induction text generalizing offset with
  | nil => simp [floorBoundary, takeBytes]
  | cons c rest ih =>
      by_cases fits : c.utf8Size ≤ offset <;> simp [floorBoundary, takeBytes, fits, ih]

end Dabara
