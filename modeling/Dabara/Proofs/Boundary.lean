import Dabara.Text.Bytes

set_option autoImplicit false

namespace Dabara

/-- An offset at which a text can be cut without cutting a character. -/
def IsBoundary (text : Text) (offset : Nat) : Prop :=
  ∃ front back, front ++ back = text ∧ byteLength front = offset

theorem byteLength_pos {text : Text} (nonempty : text ≠ []) : 0 < byteLength text := by
  cases text with
  | nil => exact absurd rfl nonempty
  | cons c rest =>
      have positive := c.utf8Size_pos
      rw [byteLength_cons]
      omega

@[simp] theorem takeBytes_zero (text : Text) : takeBytes 0 text = [] := by
  cases text with
  | nil => rfl
  | cons c rest =>
      have positive := c.utf8Size_pos
      rw [takeBytes, if_neg (by omega)]

theorem takeBytes_append (front back : Text) :
    takeBytes (byteLength front) (front ++ back) = front := by
  induction front with
  | nil => simp
  | cons c rest ih =>
      have fits : c.utf8Size ≤ c.utf8Size + byteLength rest := Nat.le_add_right _ _
      simp [takeBytes, fits, ih]

theorem dropBytes_append (front back : Text) :
    dropBytes (byteLength front) (front ++ back) = back := by
  have whole := takeBytes_append_dropBytes (byteLength front) (front ++ back)
  rw [takeBytes_append] at whole
  exact List.append_cancel_left whole

theorem isBoundary_front (front back : Text) : IsBoundary (front ++ back) (byteLength front) :=
  ⟨front, back, rfl, rfl⟩

theorem isBoundary_zero (text : Text) : IsBoundary text 0 :=
  isBoundary_front [] text

theorem isBoundary_byteLength (text : Text) : IsBoundary text (byteLength text) :=
  ⟨text, [], List.append_nil text, rfl⟩

/-- A boundary is the offset that it is lowered to. -/
theorem isBoundary_iff_floorBoundary (text : Text) (offset : Nat) :
    IsBoundary text offset ↔ floorBoundary text offset = offset := by
  rw [floorBoundary_eq_byteLength_takeBytes]
  constructor
  · intro parts
    obtain ⟨front, back, rfl, rfl⟩ := parts
    rw [takeBytes_append]
  · intro fixed
    exact ⟨takeBytes offset text, dropBytes offset text, takeBytes_append_dropBytes offset text,
      fixed⟩

theorem isBoundary_floorBoundary (text : Text) (offset : Nat) :
    IsBoundary text (floorBoundary text offset) :=
  ⟨takeBytes offset text, dropBytes offset text, takeBytes_append_dropBytes offset text,
    (floorBoundary_eq_byteLength_takeBytes text offset).symm⟩

theorem IsBoundary.le_byteLength {text : Text} {offset : Nat} (boundary : IsBoundary text offset) :
    offset ≤ byteLength text := by
  obtain ⟨front, back, rfl, rfl⟩ := boundary
  rw [byteLength_append]
  omega

theorem floorBoundary_le (text : Text) (offset : Nat) : floorBoundary text offset ≤ offset := by
  induction text generalizing offset with
  | nil => exact Nat.zero_le offset
  | cons c rest ih =>
      rw [floorBoundary]
      split
      · have lower := ih (offset - c.utf8Size)
        omega
      · exact Nat.zero_le offset

/-- No boundary stands between an offset and what it is lowered to. -/
theorem IsBoundary.le_floorBoundary {text : Text} {boundary offset : Nat}
    (isBoundary : IsBoundary text boundary) (below : boundary ≤ offset) :
    boundary ≤ floorBoundary text offset := by
  obtain ⟨front, back, rfl, rfl⟩ := isBoundary
  induction front generalizing offset with
  | nil => exact Nat.zero_le _
  | cons c rest ih =>
      rw [byteLength_cons] at below
      have later := ih (show byteLength rest ≤ offset - c.utf8Size by omega)
      rw [List.cons_append, floorBoundary, if_pos (by omega), byteLength_cons]
      omega

/-- Of two cuts of one text, the one with fewer bytes in front has a shorter front. -/
theorem exists_middle {first second firstRest secondRest : Text}
    (same : first ++ firstRest = second ++ secondRest)
    (before : byteLength first ≤ byteLength second) :
    ∃ middle, second = first ++ middle ∧ firstRest = middle ++ secondRest := by
  rcases List.append_eq_append_iff.mp same with ⟨middle, longer, rest⟩ | ⟨middle, longer, rest⟩
  · exact ⟨middle, longer, rest⟩
  · by_cases empty : middle = []
    · subst empty
      exact ⟨[], by simpa using longer.symm, by simpa using rest.symm⟩
    · have positive := byteLength_pos empty
      rw [longer, byteLength_append] at before
      omega

/-- A boundary of a whole text that lies within one of its parts is a boundary of the part. -/
theorem IsBoundary.within {front text back : Text} {offset : Nat}
    (boundary : IsBoundary (front ++ text ++ back) offset) (lower : byteLength front ≤ offset)
    (upper : offset ≤ byteLength front + byteLength text) :
    IsBoundary text (offset - byteLength front) := by
  obtain ⟨cut, rest, whole, rfl⟩ := boundary
  rw [List.append_assoc] at whole
  obtain ⟨middle, rfl, same⟩ := exists_middle whole.symm lower
  have short : byteLength middle ≤ byteLength text := by
    rw [byteLength_append] at upper
    omega
  obtain ⟨remaining, rfl, _⟩ := exists_middle same.symm short
  refine ⟨middle, remaining, rfl, ?_⟩
  rw [byteLength_append]
  omega

end Dabara
