import Dabara.Proofs.FlatText

set_option autoImplicit false

namespace Dabara

/-- Every carriage return is directly followed by a line feed. -/
def Paired : Text → Prop
  | [] => True
  | c :: rest => (c = '\r' → rest.head? = some '\n') ∧ Paired rest

/-- A text that no line feed behind it can change into one with a pair more. -/
def Settled (text : Text) : Prop :=
  text.getLast? ≠ some '\r'

theorem Settled.apart {text : Text} (settled : Settled text) (rest : Text) : Apart text rest := by
  intro cut
  exact settled cut.1

theorem Settled.append {first second : Text} (settled : Settled first)
    (later : Settled second) : Settled (first ++ second) := by
  intro last
  rw [List.getLast?_append] at last
  cases shape : second.getLast? with
  | none =>
      rw [shape, Option.none_or] at last
      exact settled last
  | some c =>
      rw [shape, Option.some_or] at last
      exact later (shape.trans last)

theorem settled_concat {text : Text} {c : Char} (other : c ≠ '\r') : Settled (text ++ [c]) := by
  simp [Settled, other]

theorem Unbroken.settled {text : Text} (unbroken : Unbroken text) : Settled text :=
  unbroken.getLast?_ne rfl

theorem Unbroken.paired {text : Text} (unbroken : Unbroken text) : Paired text := by
  induction text with
  | nil => trivial
  | cons c rest ih =>
      rw [unbroken_cons] at unbroken
      refine ⟨?_, ih unbroken.2⟩
      intro same
      rw [same] at unbroken
      exact absurd unbroken.1 (by decide)

/-- A carriage return at the end of the front part has its line feed in the rest. -/
theorem Paired.head?_of_append {first second : Text} (paired : Paired (first ++ second))
    (last : first.getLast? = some '\r') : second.head? = some '\n' := by
  induction first with
  | nil => simp at last
  | cons c rest ih =>
      obtain ⟨follows, later⟩ := paired
      cases rest with
      | nil =>
          apply follows
          simpa using last
      | cons d more =>
          apply ih later
          rwa [List.getLast?_cons_cons] at last

theorem paired_append_iff {first second : Text} (settled : Settled first) :
    Paired (first ++ second) ↔ Paired first ∧ Paired second := by
  induction first with
  | nil => simp [Paired]
  | cons c rest ih =>
      cases rest with
      | nil =>
          have other : c ≠ '\r' := by
            intro same
            exact settled (by simp [same])
          simp [Paired, other]
      | cons d more =>
          have settledRest : Settled (d :: more) := by
            intro last
            exact settled (by rw [List.getLast?_cons_cons, last])
          have step := ih settledRest
          rw [List.cons_append] at step
          rw [List.cons_append, List.cons_append, Paired, step]
          exact and_assoc.symm

namespace Place

variable {place : Place}

theorem unbroken_left (place : Place) : Unbroken place.left :=
  ((unbroken_append _ _).mp place.unbroken).1

theorem unbroken_right (place : Place) : Unbroken place.right :=
  ((unbroken_append _ _).mp place.unbroken).2

/-- Of the text around a place only the lines before and the breaks matter. -/
theorem paired_text_iff (place : Place) :
    Paired place.text ↔ (Settled place.before.flatten ∧ Paired place.before.flatten) ∧
      Paired (place.ending ++ place.after.flatten) := by
  have shape : place.text = place.before.flatten ++
      ((place.left ++ place.right) ++ (place.ending ++ place.after.flatten)) := by
    simp [text, line]
  have body : Paired ((place.left ++ place.right) ++ (place.ending ++ place.after.flatten)) ↔
      Paired (place.ending ++ place.after.flatten) := by
    rw [paired_append_iff place.unbroken.settled]
    exact and_iff_right place.unbroken.paired
  rw [shape]
  constructor
  · intro paired
    have settled : Settled place.before.flatten := by
      intro last
      have first := paired.head?_of_append last
      rw [← List.append_assoc] at first
      exact place.leads.apart ⟨last, first⟩
    obtain ⟨front, rest⟩ := (paired_append_iff settled).mp paired
    exact ⟨⟨settled, front⟩, body.mp rest⟩
  · intro parts
    obtain ⟨⟨settled, front⟩, rest⟩ := parts
    exact (paired_append_iff settled).mpr ⟨front, body.mpr rest⟩

theorem settled_before (paired : Paired place.text) : Settled place.before.flatten :=
  (place.paired_text_iff.mp paired).1.1

/-- A place with the lines before it and another end of the text, which may be its own. -/
def splice (front rear : Place) (settled : Settled front.before.flatten) (left right : Text)
    (unbroken : Unbroken (left ++ right)) : Place where
  before := front.before
  left := left
  right := right
  ending := rear.ending
  after := rear.after
  leads := front.leads.replace (settled.apart _)
  unbroken := unbroken
  closes := rear.closes

theorem paired_splice {front rear : Place} (settled : Settled front.before.flatten)
    {left right : Text} (unbroken : Unbroken (left ++ right)) (frontPaired : Paired front.text)
    (rearPaired : Paired rear.text) :
    Paired (splice front rear settled left right unbroken).text := by
  rw [paired_text_iff]
  exact ⟨(front.paired_text_iff.mp frontPaired).1, (rear.paired_text_iff.mp rearPaired).2⟩

/-- The start of the new line when the line of a place is broken there. -/
def broken (place : Place) (settled : Settled place.before.flatten) : Place where
  before := place.before ++ [place.left ++ ['\n']]
  left := []
  right := place.right
  ending := place.ending
  after := place.after
  leads := by
    rw [leads_concat]
    refine ⟨place.leads.replace (settled.apart _), ?_, ?_⟩
    · exact ⟨place.left, ['\n'], rfl, place.unbroken_left, .single rfl⟩
    · exact (settled_concat (by decide)).apart _
  unbroken := place.unbroken_right
  closes := place.closes

theorem paired_broken (settled : Settled place.before.flatten) (paired : Paired place.text) :
    Paired (place.broken settled).text := by
  obtain ⟨⟨_, front⟩, rest⟩ := place.paired_text_iff.mp paired
  have shape : (place.broken settled).before.flatten =
      place.before.flatten ++ (place.left ++ ['\n']) := by
    simp [broken]
  rw [paired_text_iff, shape]
  refine ⟨⟨settled.append (settled_concat (by decide)), ?_⟩, rest⟩
  rw [paired_append_iff settled, paired_append_iff place.unbroken_left.settled]
  exact ⟨front, place.unbroken_left.paired, by simp [Paired]⟩

end Place

end Dabara
