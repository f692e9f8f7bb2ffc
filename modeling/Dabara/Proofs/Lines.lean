import Dabara.Proofs.Boundary
import Dabara.Text.Line
import Mathlib.Data.List.Basic

set_option autoImplicit false

namespace Dabara

def Unbroken (text : Text) : Prop :=
  ∀ c ∈ text, isLineBreak c = false

/-- What ends a line: the pair of carriage return and line feed, or one character. -/
inductive IsBreak : Text → Prop
  | pair : IsBreak ['\r', '\n']
  | single {c : Char} (breaks : isLineBreak c = true) : IsBreak [c]

/-- A line with its break, which it holds at its end only. -/
def Ended (line : Text) : Prop :=
  ∃ body ending, line = body ++ ending ∧ Unbroken body ∧ IsBreak ending

/-- Two texts between which no pair of carriage return and line feed is cut. -/
def Apart (first second : Text) : Prop :=
  ¬ (first.getLast? = some '\r' ∧ second.head? = some '\n')

/-- A cut of a text into lines. -/
inductive Lined : List Text → Prop
  | last {line : Text} (unbroken : Unbroken line) : Lined [line]
  | cons {line : Text} {rest : List Text} (ended : Ended line) (apart : Apart line rest.flatten)
      (later : Lined rest) : Lined (line :: rest)

@[simp] theorem unbroken_nil : Unbroken [] := by
  intro c member
  cases member

@[simp] theorem unbroken_cons (c : Char) (text : Text) :
    Unbroken (c :: text) ↔ isLineBreak c = false ∧ Unbroken text := by
  simp [Unbroken]

@[simp] theorem unbroken_append (first second : Text) :
    Unbroken (first ++ second) ↔ Unbroken first ∧ Unbroken second := by
  simp only [Unbroken, List.mem_append, or_imp, forall_and]

theorem unbroken_spaces (count : Nat) : Unbroken (List.replicate count ' ') := by
  intro c member
  rw [List.eq_of_mem_replicate member]
  rfl

theorem IsBreak.ne_nil {ending : Text} (isBreak : IsBreak ending) : ending ≠ [] := by
  cases isBreak <;> simp

theorem Ended.ne_nil {line : Text} (ended : Ended line) : line ≠ [] := by
  obtain ⟨body, ending, rfl, _, isBreak⟩ := ended
  simp [isBreak.ne_nil]

theorem Unbroken.getLast?_ne {text : Text} {c : Char} (unbroken : Unbroken text)
    (breaks : isLineBreak c = true) : text.getLast? ≠ some c := by
  intro last
  rw [unbroken c (List.mem_of_getLast? last)] at breaks
  cases breaks

theorem Lined.ne_nil {parts : List Text} (lined : Lined parts) : parts ≠ [] := by
  cases lined <;> simp

theorem lined_extendFirst {c : Char} {parts : List Text} (inside : isLineBreak c = false)
    (lined : Lined parts) : Lined (extendFirst c parts) := by
  cases lined with
  | last unbroken => exact .last (by simp [inside, unbroken])
  | cons ended apart later =>
      have nonempty := ended.ne_nil
      obtain ⟨body, ending, rfl, unbroken, isBreak⟩ := ended
      refine .cons ⟨c :: body, ending, rfl, by simp [inside, unbroken], isBreak⟩ ?_ later
      intro cut
      obtain ⟨last, first⟩ := cut
      rw [List.getLast?_cons_of_ne_nil nonempty] at last
      exact apart ⟨last, first⟩

theorem lined_lines (text : Text) : Lined (lines text) := by
  fun_induction lines text with
  | case1 => exact .last unbroken_nil
  | case2 rest ih =>
      exact .cons ⟨[], ['\r', '\n'], rfl, unbroken_nil, .pair⟩ (by simp [Apart]) ih
  | case3 c rest notPair breaks ih =>
      refine .cons ⟨[], [c], rfl, unbroken_nil, .single breaks⟩ ?_ ih
      rw [lines_flatten]
      intro cut
      obtain ⟨last, first⟩ := cut
      cases rest with
      | nil => simp at first
      | cons d rest =>
          simp only [List.getLast?_singleton, Option.some.injEq] at last
          simp only [List.head?_cons, Option.some.injEq] at first
          exact notPair rest last (by rw [first])
  | case4 c rest notPair inside ih => exact lined_extendFirst (by simpa using inside) ih

theorem lined_cons_iff {line : Text} {rest : List Text} (nonempty : rest ≠ []) :
    Lined (line :: rest) ↔ Ended line ∧ Apart line rest.flatten ∧ Lined rest := by
  constructor
  · intro lined
    cases lined with
    | last _ => exact absurd rfl nonempty
    | cons ended apart later => exact ⟨ended, apart, later⟩
  · intro parts
    obtain ⟨ended, apart, later⟩ := parts
    exact .cons ended apart later

/-- Whole lines in front of a text, between which and before which no pair is cut. -/
def Leads : List Text → Text → Prop
  | [], _ => True
  | line :: more, rest => Ended line ∧ Apart line (more.flatten ++ rest) ∧ Leads more rest

theorem lined_append_iff {before rest : List Text} (nonempty : rest ≠ []) :
    Lined (before ++ rest) ↔ Leads before rest.flatten ∧ Lined rest := by
  induction before with
  | nil => simp [Leads]
  | cons line more ih =>
      have behind : more ++ rest ≠ [] := by simp [nonempty]
      rw [List.cons_append, lined_cons_iff behind, ih, List.flatten_append, Leads, and_assoc,
        and_assoc]

theorem leads_append (first second : List Text) (rest : Text) :
    Leads (first ++ second) rest ↔ Leads first (second.flatten ++ rest) ∧ Leads second rest := by
  induction first with
  | nil => simp [Leads]
  | cons line more ih =>
      rw [List.cons_append, Leads, ih, Leads, List.flatten_append, List.append_assoc, and_assoc,
        and_assoc]

theorem leads_concat (before : List Text) (line rest : Text) :
    Leads (before ++ [line]) rest ↔ Leads before (line ++ rest) ∧ Ended line ∧ Apart line rest := by
  rw [leads_append]
  simp [Leads]

theorem Leads.ended {before : List Text} {rest : Text} (leads : Leads before rest) :
    ∀ line ∈ before, Ended line := by
  induction before with
  | nil => simp
  | cons first more ih =>
      intro line member
      rcases List.mem_cons.mp member with rfl | later
      · exact leads.1
      · exact ih leads.2.2 line later

theorem Leads.flatten_ne_nil {before : List Text} {rest : Text} (leads : Leads before rest)
    (nonempty : before ≠ []) : before.flatten ≠ [] := by
  cases before with
  | nil => exact absurd rfl nonempty
  | cons line more => simp [leads.1.ne_nil]

theorem Leads.apart {before : List Text} {rest : Text} (leads : Leads before rest) :
    Apart before.flatten rest := by
  rcases List.eq_nil_or_concat before with rfl | ⟨front, line, rfl⟩
  · simp [Apart]
  · rw [List.concat_eq_append, leads_concat] at leads
    intro cut
    obtain ⟨last, first⟩ := cut
    refine leads.2.2 ⟨?_, first⟩
    simpa [leads.2.1.ne_nil] using last

/-- Lines lead another text too, if the pair is not cut between them and that text. -/
theorem Leads.replace {before : List Text} {rest other : Text} (leads : Leads before rest)
    (apart : Apart before.flatten other) : Leads before other := by
  induction before with
  | nil => trivial
  | cons line more ih =>
      obtain ⟨ended, lineApart, later⟩ := leads
      cases more with
      | nil => exact ⟨ended, by simpa using apart, trivial⟩
      | cons next more =>
          have nonempty := later.flatten_ne_nil (List.cons_ne_nil next more)
          obtain ⟨c, text, shape⟩ := List.exists_cons_of_ne_nil nonempty
          refine ⟨ended, ?_, ih later ?_⟩
          · rw [shape] at lineApart ⊢
            exact lineApart
          · intro cut
            obtain ⟨last, first⟩ := cut
            refine apart ⟨?_, first⟩
            rw [List.flatten_cons, List.getLast?_append, last, Option.some_or]

theorem lines_cons_of_inside {c : Char} (inside : isLineBreak c = false) (rest : Text) :
    lines (c :: rest) = extendFirst c (lines rest) := by
  have noReturn : c ≠ '\r' := by
    intro same
    subst same
    exact absurd inside (by decide)
  rw [lines]
  · simp [inside]
  · intro after same
    exact absurd same noReturn

theorem lines_append_of_unbroken {body : Text} (unbroken : Unbroken body) {rest line : Text}
    {later : List Text} (shape : lines rest = line :: later) :
    lines (body ++ rest) = (body ++ line) :: later := by
  induction body with
  | nil => exact shape
  | cons c body ih =>
      rw [unbroken_cons] at unbroken
      rw [List.cons_append, lines_cons_of_inside unbroken.1, ih unbroken.2]
      rfl

theorem lines_of_unbroken {text : Text} (unbroken : Unbroken text) : lines text = [text] := by
  have shape : lines [] = [] :: [] := rfl
  simpa using lines_append_of_unbroken unbroken shape

/-- A break that the rest does not continue ends the line before it. -/
theorem lines_append_of_isBreak {ending : Text} (isBreak : IsBreak ending) {rest : Text}
    (apart : Apart ending rest) : lines (ending ++ rest) = ending :: lines rest := by
  cases isBreak with
  | pair => rfl
  | @single c breaks =>
      rw [List.singleton_append, lines]
      · simp [breaks]
      · rintro after rfl rfl
        exact apart ⟨rfl, rfl⟩

theorem Lined.lines_flatten {parts : List Text} (lined : Lined parts) :
    lines parts.flatten = parts := by
  induction lined with
  | last unbroken => simpa using lines_of_unbroken unbroken
  | @cons line rest ended apart later ih =>
      obtain ⟨body, ending, rfl, unbroken, isBreak⟩ := ended
      have endingApart : Apart ending rest.flatten := by
        intro cut
        obtain ⟨last, first⟩ := cut
        refine apart ⟨?_, first⟩
        rw [List.getLast?_append, last, Option.some_or]
      have shape : lines (ending ++ rest.flatten) = ending :: rest := by
        rw [lines_append_of_isBreak isBreak endingApart, ih]
      rw [List.flatten_cons, List.append_assoc]
      exact lines_append_of_unbroken unbroken shape

/-- The lines of a text are its only cut into lines. -/
theorem lines_eq_iff (text : Text) (parts : List Text) :
    lines text = parts ↔ parts.flatten = text ∧ Lined parts := by
  constructor
  · intro same
    subst same
    exact ⟨lines_flatten text, lined_lines text⟩
  · intro parts
    obtain ⟨rfl, lined⟩ := parts
    exact lined.lines_flatten

theorem Unbroken.apart {first : Text} (unbroken : Unbroken first) (second : Text) :
    Apart first second := by
  intro cut
  obtain ⟨last, _⟩ := cut
  exact unbroken.getLast?_ne rfl last

theorem breakLength_concat_of_inside {c : Char} (inside : isLineBreak c = false) (front : Text) :
    breakLength (front ++ [c]) = 0 := by
  rw [breakLength, List.reverse_append, List.reverse_singleton, List.singleton_append]
  split
  · next shape =>
      rw [(List.cons.inj shape).1] at inside
      exact absurd inside (by decide)
  · next shape =>
      rw [← (List.cons.inj shape).1, inside]
      rfl
  · next shape => cases shape

theorem breakLength_of_unbroken {text : Text} (unbroken : Unbroken text) :
    breakLength text = 0 := by
  rcases List.eq_nil_or_concat text with rfl | ⟨front, c, rfl⟩
  · rfl
  · rw [List.concat_eq_append] at unbroken ⊢
    exact breakLength_concat_of_inside (unbroken c (by simp)) front

/-- A text that ends in a break ends in that break's characters and no more. -/
theorem breakLength_append {front ending : Text} (isBreak : IsBreak ending)
    (apart : Apart front ending) : breakLength (front ++ ending) = ending.length := by
  cases isBreak with
  | pair =>
      rw [breakLength, List.reverse_append]
      rfl
  | @single c breaks =>
      rw [breakLength, List.reverse_append, List.reverse_singleton, List.singleton_append]
      split
      · next shape =>
          obtain ⟨feed, behind⟩ := List.cons.inj shape
          have last : front.getLast? = some '\r' := by
            rw [← List.head?_reverse, behind]
            rfl
          exact absurd ⟨last, congrArg some feed⟩ apart
      · next shape =>
          rw [← (List.cons.inj shape).1, breaks]
          rfl
      · next shape => cases shape

theorem trimBreak_pair (text : Text) : trimBreak (text ++ ['\r', '\n']) = text := by
  have pair : List.isSuffixOf? ['\r', '\n'] (text ++ ['\r', '\n']) = some text :=
    List.isSuffixOf?_eq_some_iff_append_eq.mpr rfl
  rw [trimBreak, pair]

theorem trimBreak_concat {front : Text} {c : Char} (apart : Apart front [c]) :
    trimBreak (front ++ [c]) = if isLineBreak c then front else front ++ [c] := by
  have unpaired : List.isSuffixOf? ['\r', '\n'] (front ++ [c]) = none := by
    rw [Option.eq_none_iff_forall_ne_some]
    intro text found
    have same : (text ++ ['\r']) ++ ['\n'] = front ++ [c] := by
      rw [← List.isSuffixOf?_eq_some_iff_append_eq.mp found]
      simp
    obtain ⟨rfl, feed⟩ := List.append_inj' same rfl
    exact apart ⟨List.getLast?_concat, congrArg List.head? feed.symm⟩
  rw [trimBreak, unpaired]
  simp

/-- What is cut off the end of a line is as long as the break there, whether this is looked for as
an ending of the line or counted in its last two characters. -/
theorem trimBreak_eq_take (line : Text) :
    trimBreak line = line.take (line.length - breakLength line) := by
  rcases List.eq_nil_or_concat line with rfl | ⟨front, c, rfl⟩
  · rfl
  rw [List.concat_eq_append]
  by_cases cut : front.getLast? = some '\r' ∧ [c].head? = some '\n'
  · obtain ⟨last, feed⟩ := cut
    obtain ⟨text, rfl⟩ := List.getLast?_eq_some_iff.mp last
    obtain rfl : c = '\n' := by simpa using feed
    have pair : text ++ ['\r'] ++ ['\n'] = text ++ ['\r', '\n'] := by simp
    have whole : Apart text ['\r', '\n'] := by simp [Apart]
    rw [pair, trimBreak_pair, breakLength_append .pair whole, List.length_append,
      Nat.add_sub_cancel, List.take_left]
  · have apart : Apart front [c] := cut
    rw [trimBreak_concat apart]
    split
    · next breaks =>
        rw [breakLength_append (.single breaks) apart, List.length_append, Nat.add_sub_cancel,
          List.take_left]
    · next inside =>
        rw [breakLength_concat_of_inside (by simpa using inside), Nat.sub_zero, List.take_length]

/-- A line is its text and, unless it is the last one, its break. -/
theorem trimBreak_prefix (line : Text) : ∃ ending, line = trimBreak line ++ ending := by
  refine ⟨line.drop (line.length - breakLength line), ?_⟩
  rw [trimBreak_eq_take, List.take_append_drop]

theorem trimBreak_append {body ending : Text} (unbroken : Unbroken body)
    (isBreak : IsBreak ending) : trimBreak (body ++ ending) = body := by
  rw [trimBreak_eq_take, breakLength_append isBreak (unbroken.apart ending), List.length_append,
    Nat.add_sub_cancel, List.take_left]

/-- A line that ends in a carriage return ends in nothing else. -/
theorem Ended.of_return {line : Text} (ended : Ended line) (last : line.getLast? = some '\r') :
    ∃ body, line = body ++ ['\r'] ∧ Unbroken body := by
  obtain ⟨body, ending, rfl, unbroken, isBreak⟩ := ended
  cases isBreak with
  | pair => simp at last
  | @single c _ =>
      have same : c = '\r' := by simpa using last
      exact ⟨body, by rw [same], unbroken⟩

/-- A line feed behind whole lines that end in a carriage return belongs to the last of them. -/
theorem lines_append_of_return {before : List Text} {other : Text} (leads : Leads before other)
    (last : before.flatten.getLast? = some '\r') (rest : Text) :
    ∃ init final, before = init ++ [final] ∧
      lines (before.flatten ++ '\n' :: rest) = init ++ (final ++ ['\n']) :: lines rest ∧
      trimBreak (final ++ ['\n']) = trimBreak final := by
  rcases List.eq_nil_or_concat before with rfl | ⟨init, final, rfl⟩
  · simp at last
  rw [List.concat_eq_append] at leads last ⊢
  obtain ⟨earlier, ended, _⟩ := (leads_concat init final other).mp leads
  obtain ⟨body, rfl, unbroken⟩ := ended.of_return (by simpa [ended.ne_nil] using last)
  have pair : body ++ ['\r'] ++ ['\n'] = body ++ ['\r', '\n'] := by simp
  refine ⟨init, body ++ ['\r'], rfl, ?_, ?_⟩
  · have apart : Apart init.flatten (body ++ ['\r', '\n'] ++ rest) := by
      have first := earlier.apart
      cases body with
      | nil => simp [Apart]
      | cons c more => exact first
    have lined : Lined (init ++ (body ++ ['\r', '\n']) :: lines rest) := by
      rw [lined_append_iff (List.cons_ne_nil _ _), List.flatten_cons, lines_flatten]
      refine ⟨earlier.replace apart, .cons ⟨body, _, rfl, unbroken, .pair⟩ ?_ (lined_lines rest)⟩
      simp [Apart]
    have joined := lined.lines_flatten
    rw [List.flatten_append, List.flatten_cons, lines_flatten] at joined
    rw [pair, ← joined]
    simp
  · rw [pair, trimBreak_append unbroken .pair, trimBreak_append unbroken (.single rfl)]

/-- A text is the lines before one of its lines, that line, and the lines behind it. -/
theorem append_line_append {source : Text} {index : Nat} {line : Text}
    (present : (lines source)[index]? = some line) :
    ((lines source).take index).flatten ++ line ++ ((lines source).drop (index + 1)).flatten =
      source := by
  obtain ⟨inside, this⟩ := List.getElem?_eq_some_iff.mp present
  calc
    ((lines source).take index).flatten ++ line ++ ((lines source).drop (index + 1)).flatten =
        ((lines source).take index ++ (lines source).drop index).flatten := by
      rw [List.flatten_append, List.drop_eq_getElem_cons inside, this, List.flatten_cons,
        List.append_assoc]
    _ = source := by rw [List.take_append_drop, lines_flatten]

/-- The text of a line stands behind all lines before it. -/
theorem exists_split_of_line {source : Text} {index : Nat} {line : Text}
    (present : (lines source)[index]? = some line) :
    ∃ back, source = ((lines source).take index).flatten ++ trimBreak line ++ back := by
  obtain ⟨ending, whole⟩ := trimBreak_prefix line
  refine ⟨ending ++ ((lines source).drop (index + 1)).flatten, ?_⟩
  rw [List.append_assoc, ← List.append_assoc (trimBreak line), ← whole, ← List.append_assoc]
  exact (append_line_append present).symm

/-- Byte extents of lines that follow each other from an offset on. -/
def extents (offset : Nat) : List Text → List LineSpan
  | [] => []
  | line :: rest =>
      ⟨offset, offset + byteLength (trimBreak line), offset + byteLength line⟩ ::
        extents (offset + byteLength line) rest

@[simp] theorem length_extents (offset : Nat) (parts : List Text) :
    (extents offset parts).length = parts.length := by
  induction parts generalizing offset with
  | nil => rfl
  | cons line rest ih => simp [extents, ih]

theorem getElem?_extents (offset : Nat) (parts : List Text) (index : Nat) :
    (extents offset parts)[index]? = parts[index]?.map fun line =>
      let start := offset + byteLength (parts.take index).flatten
      ⟨start, start + byteLength (trimBreak line), start + byteLength line⟩ := by
  induction parts generalizing offset index with
  | nil => simp [extents]
  | cons line rest ih =>
      cases index with
      | zero => simp [extents]
      | succ index => simp [extents, ih, Nat.add_assoc]

theorem starts_extendFirst {c : Char} {offset : Nat} {parts : List Text} {stops : List Nat}
    (nonempty : parts ≠ [])
    (starts : (offset + c.utf8Size) :: stops =
      (extents (offset + c.utf8Size) parts).map LineSpan.start) :
    offset :: stops = (extents offset (extendFirst c parts)).map LineSpan.start := by
  cases parts with
  | nil => exact absurd rfl nonempty
  | cons line rest =>
      have behind := (List.cons.inj starts).2
      rw [Nat.add_assoc] at behind
      simp [extendFirst, extents, behind]

/-- The offsets counted along a text are those at which its lines begin. -/
theorem cons_breakStops (offset : Nat) (text : Text) :
    offset :: breakStops offset text = (extents offset (lines text)).map LineSpan.start := by
  fun_induction lines text generalizing offset with
  | case1 => rfl
  | case2 rest ih =>
      -- The carriage return of a pair ends nothing; the line feed behind it does.
      have pair : breakStops offset ('\r' :: '\n' :: rest) =
          (offset + byteLength ['\r', '\n']) ::
            breakStops (offset + byteLength ['\r', '\n']) rest := by
        simp [breakStops, isLineBreak, Nat.add_assoc]
      rw [pair, ih]
      rfl
  | case3 c rest notPair breaks ih =>
      have single : breakStops offset (c :: rest) =
          (offset + byteLength [c]) :: breakStops (offset + byteLength [c]) rest := by
        have unpaired : ¬ (c = '\r' ∧ rest.head? = some '\n') := by
          intro cut
          obtain ⟨carriage, feed⟩ := cut
          obtain ⟨after, shape⟩ := List.head?_eq_some_iff.mp feed
          exact notPair after carriage shape
        simp [breakStops, unpaired, breaks]
      rw [single, ih]
      rfl
  | case4 c rest notPair inside ih =>
      have carriage : c ≠ '\r' := by
        intro same
        subst same
        exact inside (by decide)
      have none : breakStops offset (c :: rest) = breakStops (offset + c.utf8Size) rest := by
        simp [breakStops, inside, carriage]
      rw [none]
      exact starts_extendFirst (lines_ne_nil rest) (ih (offset + c.utf8Size))

theorem lineSpansFrom_flatten (offset : Nat) (parts : List Text) :
    lineSpansFrom parts.flatten ((extents offset parts).map LineSpan.start) =
      extents offset parts := by
  induction parts generalizing offset with
  | nil => rfl
  | cons line rest ih =>
      cases rest with
      | nil => simp [extents, lineSpansFrom]
      | cons next rest =>
          have tail := ih (offset + byteLength line)
          have width : offset + byteLength line - offset = byteLength line := by omega
          simp only [extents, List.map_cons, List.flatten_cons] at tail ⊢
          rw [lineSpansFrom, width, takeBytes_append, dropBytes_append, tail]

/-- The extents counted along a text are those of its lines. -/
theorem lineSpans_eq (source : Text) : lineSpans source = extents 0 (lines source) := by
  have cut := lineSpansFrom_flatten 0 (lines source)
  rwa [lines_flatten, ← cons_breakStops] at cut

theorem getElem?_lineSpans {source : Text} {index : Nat} {line : Text}
    (present : (lines source)[index]? = some line) :
    (lineSpans source)[index]? =
      some ⟨byteLength ((lines source).take index).flatten,
        byteLength ((lines source).take index).flatten + byteLength (trimBreak line),
        byteLength ((lines source).take index).flatten + byteLength line⟩ := by
  rw [lineSpans_eq, getElem?_extents, present, Option.map_some]
  simp only [Nat.zero_add]

theorem lineStarts_eq (source : Text) :
    lineStarts source = (extents 0 (lines source)).map LineSpan.start :=
  cons_breakStops 0 source

end Dabara
