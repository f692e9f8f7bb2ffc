import Dabara.Proofs.MarkupDecoding
import Mathlib.Data.List.Infix

set_option autoImplicit false

namespace Dabara

/-- A text with every occurrence of a pattern replaced, found from the left and without overlap. An
empty pattern occurs before every character and at the end. -/
def replaceAll (pattern replacement : Text) : Text → Text
  | [] => if pattern = [] then replacement else []
  | c :: rest =>
      if _empty : pattern = [] then replacement ++ c :: replaceAll pattern replacement rest
      else
        match _found : (c :: rest).dropPrefix? pattern with
        | some behind => replacement ++ replaceAll pattern replacement behind
        | none => c :: replaceAll pattern replacement rest
termination_by text => text.length
decreasing_by
  · exact Nat.lt_succ_self _
  · obtain ⟨front, whole, same⟩ := List.dropPrefix?_eq_some_iff.mp _found
    rw [whole, beq_iff_eq.mp same, List.length_append]
    have positive := List.length_pos_iff.mpr _empty
    omega
  · exact Nat.lt_succ_self _

theorem replaceAll_append {pattern : Text} (nonempty : pattern ≠ []) (replacement rest : Text) :
    replaceAll pattern replacement (pattern ++ rest) =
      replacement ++ replaceAll pattern replacement rest := by
  have found : (pattern ++ rest).dropPrefix? pattern = some rest :=
    List.dropPrefix?_append_of_beq _ (beq_self_eq_true _)
  obtain ⟨first, more, rfl⟩ := List.exists_cons_of_ne_nil nonempty
  rw [List.cons_append] at found ⊢
  rw [replaceAll, dif_neg nonempty]
  split
  · next behind same =>
      rw [found, Option.some.injEq] at same
      rw [same]
  · next same =>
      rw [found] at same
      cases same

theorem replaceAll_cons {pattern rest : Text} {c : Char} (absent : ¬ pattern <+: c :: rest)
    (replacement : Text) :
    replaceAll pattern replacement (c :: rest) = c :: replaceAll pattern replacement rest := by
  have nonempty : pattern ≠ [] := by
    rintro rfl
    exact absent List.nil_prefix
  rw [replaceAll, dif_neg nonempty]
  split
  · next behind found =>
      obtain ⟨front, whole, same⟩ := List.dropPrefix?_eq_some_iff.mp found
      rw [beq_iff_eq.mp same] at whole
      exact absurd ⟨behind, whole.symm⟩ absent
  · rfl

section Replacing

variable {first sign : Char} {more others : Text}

/-- Nothing is replaced in text without the character that the pattern begins with. -/
theorem replaceAll_append_of_not_mem {front : Text} (absent : first ∉ front)
    (replacement rest : Text) :
    replaceAll (first :: more) replacement (front ++ rest) =
      front ++ replaceAll (first :: more) replacement rest := by
  induction front with
  | nil => rfl
  | cons c front ih =>
      rw [List.mem_cons, not_or] at absent
      have elsewhere : ¬ first :: more <+: c :: (front ++ rest) := by
        intro occurs
        exact absent.1 (List.cons_prefix_cons.mp occurs).1
      rw [List.cons_append, replaceAll_cons elsewhere, ih absent.2, List.cons_append]

/-- What stands at the front of a text stays there, and nothing else comes there, as long as it
holds neither what the pattern nor what the replacement begins with. -/
theorem isPrefix_replaceAll_iff {word : Text} (unfound : first ∉ word) (unmade : sign ∉ word)
    (text : Text) :
    word <+: replaceAll (first :: more) (sign :: others) text ↔ word <+: text := by
  induction word generalizing text with
  | nil => simp
  | cons a word ih =>
      rw [List.mem_cons, not_or] at unfound unmade
      cases text with
      | nil => simp [replaceAll]
      | cons c rest =>
          by_cases occurs : first :: more <+: c :: rest
          · obtain ⟨behind, shape⟩ := occurs
            rw [← shape, replaceAll_append (List.cons_ne_nil first more), List.cons_append,
              List.cons_append, List.cons_prefix_cons, List.cons_prefix_cons]
            refine iff_of_false ?_ ?_
            · exact fun same => unmade.1 same.1.symm
            · exact fun same => unfound.1 same.1.symm
          · rw [replaceAll_cons occurs, List.cons_prefix_cons, List.cons_prefix_cons,
              ih unfound.2 unmade.2]

end Replacing

namespace Markup

def entities : List Text :=
  ["&amp;".toList, "&lt;".toList, "&gt;".toList]

theorem exists_name_of_mem_entities {entity : Text} (listed : entity ∈ entities) :
    ∃ name, entity = '&' :: name ∧ '&' ∉ name ∧ '<' ∉ name ∧ '>' ∉ name := by
  simp only [entities, List.mem_cons, List.not_mem_nil, or_false] at listed
  rcases listed with rfl | rfl | rfl
  · exact ⟨"amp;".toList, by decide⟩
  · exact ⟨"lt;".toList, by decide⟩
  · exact ⟨"gt;".toList, by decide⟩

/-- Where none of the three readings of an ampersand applies, no entity begins. -/
theorem not_isPrefix_of_mem_entities {c : Char} {rest : Text}
    (amp : ∀ behind, c = '&' → rest = 'a' :: 'm' :: 'p' :: ';' :: behind → False)
    (less : ∀ behind, c = '&' → rest = 'l' :: 't' :: ';' :: behind → False)
    (greater : ∀ behind, c = '&' → rest = 'g' :: 't' :: ';' :: behind → False) :
    ∀ entity ∈ entities, ¬ entity <+: c :: rest := by
  simp only [entities, List.forall_mem_cons]
  refine ⟨?_, ?_, ?_, by simp⟩
  · rintro ⟨behind, shape⟩
    cases shape
    exact amp behind rfl rfl
  · rintro ⟨behind, shape⟩
    cases shape
    exact less behind rfl rfl
  · rintro ⟨behind, shape⟩
    cases shape
    exact greater behind rfl rfl

theorem length_unescape_le (text : Text) : (unescape text).length ≤ text.length := by
  fun_induction unescape text with
  | case1 => exact Nat.le_refl _
  | case2 rest ih | case3 rest ih | case4 rest ih | case5 c rest _ _ _ ih =>
      simp only [List.length_cons]
      omega

theorem cons_unescape_ne {entity : Text} (listed : entity ∈ entities) (c : Char) (rest : Text) :
    c :: unescape rest ≠ entity ++ rest := by
  intro same
  have long : ∀ entity ∈ entities, 1 < entity.length := by decide
  have lengths := congrArg List.length same
  have shorter := length_unescape_le rest
  have entity_long := long entity listed
  rw [List.length_cons, List.length_append] at lengths
  omega

/-- Undoing entities changes a text exactly if it holds one. -/
theorem unescape_eq_self_iff (text : Text) :
    unescape text = text ↔ ∀ entity ∈ entities, ¬ entity <:+: text := by
  have entitied : ∀ {entity}, entity ∈ entities → ∀ c rest, c :: unescape rest = entity ++ rest ↔
      ∀ other ∈ entities, ¬ other <:+: entity ++ rest := by
    intro entity listed c rest
    refine iff_of_false (cons_unescape_ne listed c rest) ?_
    intro free
    exact free entity listed (List.prefix_append entity rest).isInfix
  fun_induction unescape text with
  | case1 => decide
  | case2 rest _ => exact @entitied "&amp;".toList (by decide) '&' rest
  | case3 rest _ => exact @entitied "&lt;".toList (by decide) '<' rest
  | case4 rest _ => exact @entitied "&gt;".toList (by decide) '>' rest
  | case5 c rest amp less greater ih =>
      have first := not_isPrefix_of_mem_entities amp less greater
      have tails : c :: unescape rest = c :: rest ↔ unescape rest = rest := List.cons_inj_right c
      refine (tails.trans ih).trans (forall₂_congr fun entity listed => not_congr ?_)
      rw [List.infix_cons_iff, or_iff_right (first entity listed)]

/-- An entity does not reach into text without a semicolon. -/
theorem infix_of_infix_append {entity text tail : Text} (listed : entity ∈ entities)
    (bare : ';' ∉ tail) (within : entity <:+: text ++ tail) : entity <:+: text := by
  have closing : ∀ entity ∈ entities, entity ≠ [] ∧ entity.getLast? = some ';' := by decide
  obtain ⟨nonempty, last⟩ := closing entity listed
  induction tail using List.reverseRecOn with
  | nil => rwa [List.append_nil] at within
  | append_singleton more c ih =>
      rw [← List.append_assoc, List.infix_concat_iff, List.suffix_concat_iff] at within
      rw [List.mem_append, not_or] at bare
      rcases within with (empty | ⟨front, shape, _⟩) | before
      · exact absurd empty nonempty
      · rw [shape, List.getLast?_concat, Option.some.injEq] at last
        exact absurd (List.mem_singleton.mpr last.symm) bare.2
      · exact ih bare.1 before

/-- Markup with the entities of the angle brackets replaced by them, then that of the ampersand. -/
def replaceEntities (markup : Text) : Text :=
  replaceAll "&amp;".toList ['&'] (replaceAll "&gt;".toList ['>']
    (replaceAll "&lt;".toList ['<'] markup))

/-- An entity is left as it is when another one is replaced. -/
theorem replaceAll_other {entity other : Text} (listed : entity ∈ entities)
    (present : other ∈ entities) (distinct : entity ≠ other) (replacement rest : Text) :
    replaceAll entity replacement (other ++ rest) =
      other ++ replaceAll entity replacement rest := by
  have apart : ∀ entity ∈ entities, ∀ other ∈ entities, entity ≠ other → ¬ entity <+: other := by
    decide
  have absent : ¬ entity <+: other ++ rest := by
    intro occurs
    have here := List.prefix_append other rest
    rcases List.prefix_or_prefix_of_prefix occurs here with shorter | longer
    · exact apart entity listed other present distinct shorter
    · exact apart other present entity listed distinct.symm longer
  obtain ⟨name, rfl, _⟩ := exists_name_of_mem_entities listed
  obtain ⟨shown, rfl, unmarked, _⟩ := exists_name_of_mem_entities present
  rw [List.cons_append] at absent ⊢
  rw [replaceAll_cons absent, replaceAll_append_of_not_mem unmarked, List.cons_append]

/-- A character that begins no entity is left as it is, also when an angle bracket has been put in
behind it. -/
theorem not_isPrefix_replaceAll {entity pattern rest : Text} {c sign : Char}
    (listed : entity ∈ entities) (replaced : pattern ∈ entities) (angle : sign = '<' ∨ sign = '>')
    (absent : ¬ entity <+: c :: rest) : ¬ entity <+: c :: replaceAll pattern [sign] rest := by
  obtain ⟨name, rfl, unmarked, less, greater⟩ := exists_name_of_mem_entities listed
  obtain ⟨found, rfl, _⟩ := exists_name_of_mem_entities replaced
  have unmade : sign ∉ name := by
    rcases angle with rfl | rfl
    · exact less
    · exact greater
  rwa [List.cons_prefix_cons, isPrefix_replaceAll_iff unmarked unmade, ← List.cons_prefix_cons]

/-- Only an ampersand begins what is replaced. -/
theorem replaceAll_unmarked {entity : Text} (listed : entity ∈ entities) {c : Char}
    (other : c ≠ '&') (replacement rest : Text) :
    replaceAll entity replacement (c :: rest) = c :: replaceAll entity replacement rest := by
  obtain ⟨name, rfl, _⟩ := exists_name_of_mem_entities listed
  exact replaceAll_cons (fun occurs => other (List.cons_prefix_cons.mp occurs).1.symm) replacement

/-- The entities may be undone each where it begins, or one kind after the other. -/
theorem replaceEntities_eq_unescape (markup : Text) : replaceEntities markup = unescape markup := by
  have amp : "&amp;".toList ∈ entities := by decide
  have less : "&lt;".toList ∈ entities := by decide
  have greater : "&gt;".toList ∈ entities := by decide
  unfold replaceEntities
  fun_induction unescape markup with
  | case1 => simp [replaceAll]
  | case2 rest ih =>
      change replaceAll _ _ (replaceAll _ _ (replaceAll _ _ ("&amp;".toList ++ rest))) = _
      rw [replaceAll_other less amp (by decide), replaceAll_other greater amp (by decide),
        replaceAll_append (by decide), ih, List.singleton_append]
  | case3 rest ih =>
      change replaceAll _ _ (replaceAll _ _ (replaceAll _ _ ("&lt;".toList ++ rest))) = _
      rw [replaceAll_append (by decide), List.singleton_append,
        replaceAll_unmarked greater (by decide), replaceAll_unmarked amp (by decide), ih]
  | case4 rest ih =>
      change replaceAll _ _ (replaceAll _ _ (replaceAll _ _ ("&gt;".toList ++ rest))) = _
      rw [replaceAll_other less greater (by decide), replaceAll_append (by decide),
        List.singleton_append, replaceAll_unmarked amp (by decide), ih]
  | case5 c rest noAmp noLess noGreater ih =>
      have absent := not_isPrefix_of_mem_entities noAmp noLess noGreater
      -- What the passes before one put in does not make an entity for it.
      have greaterAbsent := not_isPrefix_replaceAll greater less (Or.inl rfl) (absent _ greater)
      have ampAbsent := not_isPrefix_replaceAll amp greater (Or.inr rfl)
        (not_isPrefix_replaceAll amp less (Or.inl rfl) (absent _ amp))
      rw [replaceAll_cons (absent _ less), replaceAll_cons greaterAbsent, replaceAll_cons ampAbsent,
        ih]

/-- Every ampersand begins an entity. -/
def Entitied (markup : Text) : Prop :=
  ∀ ending ∈ markup.tails, ending.head? = some '&' → ∃ entity ∈ entities, entity <+: ending

/-- Markup that escaping can give: no angle bracket stands in it, and every ampersand begins an
entity. -/
structure WellEscaped (markup : Text) : Prop where
  noLess : '<' ∉ markup
  noGreater : '>' ∉ markup
  entitied : Entitied markup

instance (markup : Text) : Decidable (Entitied markup) :=
  inferInstanceAs (Decidable (∀ ending ∈ markup.tails, _))

instance (markup : Text) : Decidable (WellEscaped markup) :=
  decidable_of_iff ('<' ∉ markup ∧ '>' ∉ markup ∧ Entitied markup)
    ⟨fun ⟨noLess, noGreater, entitied⟩ => ⟨noLess, noGreater, entitied⟩,
      fun escaped => ⟨escaped.noLess, escaped.noGreater, escaped.entitied⟩⟩

theorem entitied_cons (c : Char) (rest : Text) :
    Entitied (c :: rest) ↔
      (c = '&' → ∃ entity ∈ entities, entity <+: c :: rest) ∧ Entitied rest := by
  rw [Entitied, List.tails_cons, List.forall_mem_cons, List.head?_cons, Option.some.injEq]
  rfl

theorem Entitied.append {front rest : Text} (unmarked : '&' ∉ front) (entitied : Entitied rest) :
    Entitied (front ++ rest) := by
  induction front with
  | nil => exact entitied
  | cons c front ih =>
      rw [List.mem_cons, not_or] at unmarked
      rw [List.cons_append, entitied_cons]
      exact ⟨fun marked => absurd marked.symm unmarked.1, ih unmarked.2⟩

theorem Entitied.entity {entity rest : Text} (listed : entity ∈ entities)
    (entitied : Entitied rest) : Entitied (entity ++ rest) := by
  have begins := List.prefix_append entity rest
  obtain ⟨name, rfl, unmarked, _⟩ := exists_name_of_mem_entities listed
  rw [List.cons_append, entitied_cons]
  exact ⟨fun _ => ⟨_, listed, begins⟩, entitied.append unmarked⟩

theorem entitied_escape (text : Text) : Entitied (escape text) := by
  induction text with
  | nil => simp [Entitied]
  | cons c more ih =>
      change Entitied (escapeChar c ++ escape more)
      unfold escapeChar
      split
      · exact ih.entity (by decide)
      · exact ih.entity (by decide)
      · exact ih.entity (by decide)
      · next amp _ _ => exact ih.append (by simpa using Ne.symm amp)

theorem wellEscaped_escape (text : Text) : WellEscaped (escape text) where
  noLess := fun member => (not_angle_of_mem_escape member).1 rfl
  noGreater := fun member => (not_angle_of_mem_escape member).2 rfl
  entitied := entitied_escape text

theorem WellEscaped.of_append (front : Text) {rest : Text} (escaped : WellEscaped (front ++ rest)) :
    WellEscaped rest where
  noLess := fun member => escaped.noLess (List.mem_append_right front member)
  noGreater := fun member => escaped.noGreater (List.mem_append_right front member)
  entitied := by
    intro ending member
    apply escaped.entitied ending
    rw [List.mem_tails] at member ⊢
    exact member.trans (List.suffix_append front rest)

/-- A character of well escaped markup that begins no entity is written as it is. -/
theorem WellEscaped.escapeChar_eq {c : Char} {rest : Text} (escaped : WellEscaped (c :: rest))
    (absent : ∀ entity ∈ entities, ¬ entity <+: c :: rest) : escapeChar c = [c] := by
  have less : c ≠ '<' := fun same => escaped.noLess (same ▸ List.mem_cons_self)
  have greater : c ≠ '>' := fun same => escaped.noGreater (same ▸ List.mem_cons_self)
  have amp : c ≠ '&' := by
    intro marked
    obtain ⟨entity, listed, begins⟩ := ((entitied_cons c rest).mp escaped.entitied).1 marked
    exact absent entity listed begins
  unfold escapeChar
  split
  · exact absurd rfl amp
  · exact absurd rfl less
  · exact absurd rfl greater
  · rfl

/-- Well escaped markup is what its text is written as. -/
theorem WellEscaped.escape_unescape {markup : Text} (escaped : WellEscaped markup) :
    escape (unescape markup) = markup := by
  fun_induction unescape markup with
  | case1 => rfl
  | case2 rest ih => exact congrArg ("&amp;".toList ++ ·) (ih (.of_append "&amp;".toList escaped))
  | case3 rest ih => exact congrArg ("&lt;".toList ++ ·) (ih (.of_append "&lt;".toList escaped))
  | case4 rest ih => exact congrArg ("&gt;".toList ++ ·) (ih (.of_append "&gt;".toList escaped))
  | case5 c rest noAmp noLess noGreater ih =>
      have plain := escaped.escapeChar_eq (not_isPrefix_of_mem_entities noAmp noLess noGreater)
      have later := ih (.of_append [c] escaped)
      calc
        escape (c :: unescape rest) = escapeChar c ++ escape (unescape rest) := rfl
        _ = c :: rest := by rw [plain, later, List.singleton_append]

/-- Escaping and the replacement of the entities undo each other, the one way on every text, the
other way on exactly the markup that escaping gives. -/
theorem replaceEntities_escape :
    (∀ text, replaceEntities (escape text) = text) ∧
      ∀ markup, ((∃ text, escape text = markup) ↔ WellEscaped markup) ∧
        (escape (replaceEntities markup) = markup ↔ WellEscaped markup) := by
  simp only [replaceEntities_eq_unescape]
  refine ⟨unescape_escape, fun markup => ⟨⟨?_, ?_⟩, ⟨?_, ?_⟩⟩⟩
  · rintro ⟨text, rfl⟩
    exact wellEscaped_escape text
  · exact fun escaped => ⟨unescape markup, escaped.escape_unescape⟩
  · intro same
    rw [← same]
    exact wellEscaped_escape (unescape markup)
  · exact WellEscaped.escape_unescape

/-- Replaced before the others, the ampersand's entity would make one of them. -/
example : replaceAll "&lt;".toList ['<'] (replaceAll "&amp;".toList ['&']
    (escape "&lt;".toList)) = ['<'] := by
  decide +kernel

end Markup

end Dabara
