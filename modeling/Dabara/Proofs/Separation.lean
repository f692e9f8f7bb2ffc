import Dabara.Proofs.Rescanning

set_option autoImplicit false

namespace Dabara

open Fragment (front join startsWith)

namespace Fragment

theorem startsWith_feed (holds : Char → Bool) (stops : holds '\n' = false) (text rest : Text) :
    startsWith holds (text ++ '\n' :: rest) = startsWith holds text := by
  cases text with
  | nil => exact stops
  | cons c more => rfl

section Stopped

variable {holds : Char → Bool} (stops : holds '\n' = false)
include stops

theorem takeWhile_feed (text rest : Text) :
    (text ++ '\n' :: rest).takeWhile holds = text.takeWhile holds := by
  rw [List.takeWhile_append]
  split
  · next whole =>
      have all : text.takeWhile holds = text := (List.takeWhile_prefix holds).eq_of_length whole
      rw [List.takeWhile_cons_of_neg (by simp [stops]), List.append_nil, all]
  · rfl

theorem dropWhile_feed (text rest : Text) :
    (text ++ '\n' :: rest).dropWhile holds = text.dropWhile holds ++ '\n' :: rest := by
  rw [List.dropWhile_append]
  split
  · next none =>
      rw [List.isEmpty_iff.mp none, List.dropWhile_cons_of_neg (by simp [stops]), List.nil_append]
  · rfl

theorem run_feed (category : Category) (c : Char) (text rest : Text) :
    run category holds c (text ++ '\n' :: rest) =
      ((run category holds c text).1, (run category holds c text).2 ++ '\n' :: rest) := by
  rw [run, takeWhile_feed stops, dropWhile_feed stops, run]

end Stopped

/-- Spaces up to a line feed lead to no parenthesis, as spaces up to the end do not. -/
theorem opensCall_feed (text rest : Text) : opensCall (text ++ '\n' :: rest) = opensCall text := by
  rw [opensCall, dropWhile_feed (by decide), startsWith_feed _ (by decide), opensCall]

theorem word_feed (c : Char) (text rest : Text) :
    word c (text ++ '\n' :: rest) = ((word c text).1, (word c text).2 ++ '\n' :: rest) := by
  have letter : isIdentChar '\n' = false := by decide
  rw [word, word, takeWhile_feed letter, dropWhile_feed letter]
  dsimp only
  rw [wordCategory, opensCall_feed, wordCategory]

theorem method_feed (text rest : Text) :
    method (text ++ '\n' :: rest) = ((method text).1, (method text).2 ++ '\n' :: rest) := by
  have letter : isIdentChar '\n' = false := by decide
  rw [method, method, takeWhile_feed letter, dropWhile_feed letter]

/-- A rule ends before a line feed where it ends with the text, unless it is an open string. -/
theorem front_feed {c : Char} {text : Text} (closed : c = '"' → '"' ∈ text) (rest : Text) :
    front c (text ++ '\n' :: rest) =
      ((front c text).1, (front c text).2 ++ '\n' :: rest) := by
  rw [front, front]
  simp only [startsWith_feed Char.isDigit (by decide), startsWith_feed isIdentStart (by decide),
    startsWith_feed (· == '=') (by decide)]
  split
  · exact run_feed (by decide) .comment c text rest
  split
  · next quote => exact quoted_append_of_stop (closed quote) ('\n' :: rest)
  split
  · exact run_feed (by decide) .number c text rest
  split
  · exact word_feed c text rest
  split
  · exact method_feed text rest
  split
  · next equals =>
      have nonempty : text ≠ [] := by
        rintro rfl
        simp [startsWith] at equals
      rw [List.tail_append_of_ne_nil nonempty]
  split
  · rfl
  split
  · rfl
  · rfl

/-- A string without its closing quote. -/
def IsOpenString (part : Fragment) : Prop :=
  part.category = .string ∧ part.text.count '"' = 1

/-- A quote behind which there is none opens a string that takes all of the text. -/
theorem front_unclosed {text : Text} (unclosed : '"' ∉ text) :
    front '"' text = ([⟨.string, '"' :: text⟩], []) ∧
      IsOpenString ⟨.string, '"' :: text⟩ := by
  have inside : ∀ c ∈ text, (c != '"') = true := by
    intro c member
    simpa using ne_of_mem_of_not_mem member unclosed
  constructor
  · rw [front, if_neg (by decide), if_pos rfl, quoted, List.takeWhile_eq_self_iff.mpr inside,
      List.dropWhile_eq_nil_iff.mpr inside]
  · refine ⟨rfl, ?_⟩
    rw [List.count_cons_self, List.count_eq_zero.mpr unclosed]

end Fragment

open Fragment (IsOpenString)

namespace Grammar

/-- An open string stands at the end of a text and nowhere else. -/
theorem Admits.rest_eq_nil {previous : Option Fragment} {part : Fragment} {rest : Text}
    (admitted : Admits previous part rest) (opened : IsOpenString part) : rest = [] := by
  obtain ⟨category, quotes⟩ := opened
  cases admitted with
  | closedString unquoted => simp at quotes
  | openString unquoted => rfl
  | word _ _ classified => cases classified <;> cases category
  | dot _ => cases category
  | _ => cases category

end Grammar

theorem fragments_feed (source : Text)
    (closed : ∀ part, (fragments source).getLast? = some part → ¬ IsOpenString part)
    (rest : Text) :
    fragments (source ++ '\n' :: rest) =
      fragments source ++ ⟨.plain, ['\n']⟩ :: fragments rest := by
  fun_induction fragments source with
  | case1 =>
      rw [List.nil_append, fragments_cons]
      rfl
  | case2 c text cut ih =>
      have quoted : c = '"' → '"' ∈ text := by
        rintro rfl
        by_contra unclosed
        obtain ⟨taken, opened⟩ := Fragment.front_unclosed unclosed
        have last : (cut.1 ++ fragments cut.2).getLast? = some ⟨.string, '"' :: text⟩ := by
          have shape : cut = ([⟨.string, '"' :: text⟩], []) := taken
          rw [shape, fragments_nil]
          rfl
        exact closed _ last opened
      have later : ∀ part, (fragments cut.2).getLast? = some part → ¬ IsOpenString part := by
        intro part last
        apply closed
        rw [List.getLast?_append, last, Option.some_or]
      rw [List.cons_append, fragments_cons, Fragment.front_feed quoted, ih later, List.append_assoc]

/-- Two texts with a line feed between them are cut apart there, exactly if the first does not end
inside a string. -/
theorem fragments_feed_iff (source rest : Text) :
    fragments (source ++ '\n' :: rest) =
        fragments source ++ ⟨.plain, ['\n']⟩ :: fragments rest ↔
      ∀ part, (fragments source).getLast? = some part → ¬ IsOpenString part := by
  constructor
  · intro apart part last opened
    obtain ⟨before, shape⟩ := List.getLast?_eq_some_iff.mp last
    have grammatical := Grammar.grammatical_fragments (source ++ '\n' :: rest)
    rw [apart, shape, List.append_assoc, List.singleton_append] at grammatical
    have admitted := grammatical before part (⟨.plain, ['\n']⟩ :: fragments rest) rfl
    exact absurd (admitted.rest_eq_nil opened) (by simp)
  · intro closed
    exact fragments_feed source closed rest

/-- A line feed makes the tokens before it and behind it independent of each other: they are those
of the text before and, moved, those of the text behind, exactly if the text before does not end
inside a string. -/
theorem scan_feed_iff (source rest : Text) :
    scan (source ++ '\n' :: rest) =
        scan source ++ ⟨⟨.plain, ['\n']⟩, byteLength source⟩ ::
          (scan rest).map (Token.shift (byteLength source + 1)) ↔
      ∀ token, (scan source).getLast? = some token →
        ¬ (token.category = .string ∧ token.text.count '"' = 1) := by
  have located : scan source ++ ⟨⟨.plain, ['\n']⟩, byteLength source⟩ ::
        (scan rest).map (Token.shift (byteLength source + 1)) =
      locate 0 (fragments source ++ ⟨.plain, ['\n']⟩ :: fragments rest) := by
    rw [locate_append, join_fragments, Nat.zero_add, locate_cons, scan, scan, ← locate_add]
    rfl
  have last : (fragments source).getLast? = (scan source).getLast?.map Token.toFragment := by
    rw [← List.getLast?_map, scan, map_toFragment_locate]
  rw [located]
  calc
    _ ↔ fragments (source ++ '\n' :: rest) =
        fragments source ++ ⟨.plain, ['\n']⟩ :: fragments rest :=
      ⟨locate_injective, congrArg (locate 0)⟩
    _ ↔ ∀ part, (fragments source).getLast? = some part → ¬ IsOpenString part :=
      fragments_feed_iff source rest
    _ ↔ _ := by
      rw [last]
      simp [IsOpenString]

end Dabara
