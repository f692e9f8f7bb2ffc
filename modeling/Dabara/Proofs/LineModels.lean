import Dabara.Buffer
import Dabara.Proofs.Segments

set_option autoImplicit false

namespace Dabara

theorem length_lineStarts (source : Text) : (lineStarts source).length = (lines source).length := by
  rw [lineStarts_eq, List.length_map, length_extents]

theorem getElem?_lineStarts (source : Text) (index : Nat) :
    (lineStarts source)[index]? =
      (lines source)[index]?.map fun _ => byteLength ((lines source).take index).flatten := by
  rw [lineStarts_eq, List.getElem?_map, getElem?_extents, Option.map_map]
  simp only [Function.comp_def, Nat.zero_add]

/-- A line stops where the next one begins, or at the end of the source. -/
theorem getD_lineStarts_succ {source : Text} {index : Nat} {line : Text}
    (present : (lines source)[index]? = some line) :
    (lineStarts source)[index + 1]?.getD (byteLength source) =
      byteLength ((lines source).take index).flatten + byteLength line := by
  have through : (lines source).take (index + 1) = (lines source).take index ++ [line] := by
    rw [List.take_add_one, present, Option.toList_some]
  have total : byteLength ((lines source).take (index + 1)).flatten =
      byteLength ((lines source).take index).flatten + byteLength line := by
    rw [through, List.flatten_append, byteLength_append, List.flatten_singleton]
  rw [getElem?_lineStarts, ← total]
  cases behind : (lines source)[index + 1]? with
  | some next => rfl
  | none =>
      -- Nothing follows, so the lines up to this one are all there are.
      have last : (lines source).take (index + 1) = lines source :=
        List.take_of_length_le (List.getElem?_eq_none_iff.mp behind)
      rw [last, lines_flatten]
      rfl

/-- No line of a cut ends before its break. -/
theorem Lined.unbroken_trimBreak {parts : List Text} (lined : Lined parts) {line : Text}
    (member : line ∈ parts) : Unbroken (trimBreak line) := by
  induction lined with
  | last unbroken =>
      obtain rfl := List.mem_singleton.mp member
      rw [trimBreak_eq_take, breakLength_of_unbroken unbroken, Nat.sub_zero, List.take_length]
      exact unbroken
  | cons ended _ _ ih =>
      rcases List.mem_cons.mp member with rfl | later
      · obtain ⟨body, ending, rfl, unbroken, isBreak⟩ := ended
        rw [trimBreak_append unbroken isBreak]
        exact unbroken
      · exact ih later

theorem length_trimBreak (line : Text) :
    (trimBreak line).length = line.length - breakLength line := by
  rw [trimBreak_eq_take, List.length_take]
  omega

/-- The bytes of a line, and those of its text, are where its extent says. -/
theorem sliceBytes_lineSpans {source : Text} {index : Nat} {line : Text} {span : LineSpan}
    (present : (lines source)[index]? = some line)
    (spanned : (lineSpans source)[index]? = some span) :
    sliceBytes source span.start span.stop = line ∧
      sliceBytes source span.start span.textStop = trimBreak line := by
  rw [getElem?_lineSpans present, Option.some.injEq] at spanned
  subst spanned
  dsimp only
  constructor
  · rw [← byteLength_append]
    nth_rewrite 1 [← append_line_append present]
    exact sliceBytes_append _ line _
  · obtain ⟨back, whole⟩ := exists_split_of_line present
    rw [← byteLength_append]
    nth_rewrite 1 [whole]
    exact sliceBytes_append _ (trimBreak line) back

/-- What is agreed on about one line: the bytes from its start to the next are the line of the
buffer, those up to its text's end are what is left without the break, this has as many characters
as the buffer counts, and no line ends among them. -/
structure LineAgrees (source : Text) (index : Nat) (line : Text) (span : LineSpan) : Prop where
  start : (lineStarts source)[index]? = some span.start
  stop : (lineStarts source)[index + 1]?.getD (byteLength source) = span.stop
  whole : sliceBytes source span.start span.stop = line
  text : sliceBytes source span.start span.textStop = trimBreak line
  length : (Buffer.ofText source).lineLength? index = some (trimBreak line).length
  unbroken : Unbroken (trimBreak line)

theorem lineAgrees {source : Text} {index : Nat} {line : Text} {span : LineSpan}
    (present : (lines source)[index]? = some line)
    (spanned : (lineSpans source)[index]? = some span) : LineAgrees source index line span where
  start := by rw [lineStarts_eq_map, List.getElem?_map, spanned, Option.map_some]
  stop := by
    rw [getD_lineStarts_succ present]
    rw [getElem?_lineSpans present, Option.some.injEq] at spanned
    rw [← spanned]
  whole := (sliceBytes_lineSpans present spanned).1
  text := (sliceBytes_lineSpans present spanned).2
  length := by
    rw [Buffer.lineLength?, Buffer.line?, length_trimBreak]
    exact congrArg (Option.map fun text : Text => text.length - breakLength text) present
  unbroken := (lined_lines source).unbroken_trimBreak (List.mem_of_getElem? present)

/-- The lines of a buffer, asked for one after another. -/
theorem flatMap_line? (buffer : Buffer) :
    ((List.range buffer.lineCount).flatMap fun index => (buffer.line? index).getD []) =
      buffer.text := by
  have each : (List.range (lines buffer.text).length).map (fun index =>
      (lines buffer.text)[index]?.getD []) = lines buffer.text := by
    apply List.ext_getElem
    · simp
    · intro index _ inside
      simp [inside]
  calc
    _ = ((List.range (lines buffer.text).length).map fun index =>
        (lines buffer.text)[index]?.getD []).flatten := List.flatMap_def
    _ = buffer.text := by rw [each, lines_flatten]

/-- The highlights of every text have a line for each line that the buffer has, both agree on every
line, and the lines put together are the text. -/
theorem lines_agree (source : Text) :
    (Highlight.perLine source).length = (Buffer.ofText source).lineCount ∧
      (lineStarts source).length = (Buffer.ofText source).lineCount ∧
      (∀ index < (Buffer.ofText source).lineCount, ∃ line span,
        (Buffer.ofText source).line? index = some line ∧
        (lineSpans source)[index]? = some span ∧ LineAgrees source index line span) ∧
      ((List.range (Buffer.ofText source).lineCount).flatMap fun index =>
        ((Buffer.ofText source).line? index).getD []) = source := by
  refine ⟨length_perLine source, length_lineStarts source, ?_, flatMap_line? (.ofText source)⟩
  intro index inside
  have present := List.getElem?_eq_getElem (show index < (lines source).length from inside)
  exact ⟨_, _, present, getElem?_lineSpans present, lineAgrees present (getElem?_lineSpans present)⟩

/-- A pair stands behind a carriage return of its own, and another carriage return ends the text. -/
theorem lines_agree_pair :
    1 < (Buffer.ofText "a\r\r\nƙ\n\r".toList).lineCount ∧
      (Buffer.ofText "a\r\r\nƙ\n\r".toList).line? 1 = some ['\r', '\n'] ∧
      LineAgrees "a\r\r\nƙ\n\r".toList 1 ['\r', '\n'] ⟨2, 2, 4⟩ := by
  have inside : 1 < (Buffer.ofText "a\r\r\nƙ\n\r".toList).lineCount := by decide
  have present : (Buffer.ofText "a\r\r\nƙ\n\r".toList).line? 1 = some ['\r', '\n'] := by decide
  have spanned : (lineSpans "a\r\r\nƙ\n\r".toList)[1]? = some ⟨2, 2, 4⟩ := by decide
  obtain ⟨line, span, found, extent, agrees⟩ := (lines_agree _).2.2.1 1 inside
  obtain rfl := Option.some.inj (present.symm.trans found)
  obtain rfl := Option.some.inj (spanned.symm.trans extent)
  exact ⟨inside, present, agrees⟩

end Dabara
