import Dabara.Markup
import Dabara.Proofs.Grammar
import Mathlib.Data.List.Basic
import Mathlib.Data.List.TakeWhile

set_option autoImplicit false

namespace Dabara.Markup

/-- A piece of markup with its entities undone. -/
inductive Node
  | run (text : Text)
  | element (className text : Text)
  deriving DecidableEq

def Node.text : Node → Text
  | run text => text
  | element _ text => text

/-- Undoes the three entities, each where it begins. -/
def unescape : Text → Text
  | [] => []
  | '&' :: 'a' :: 'm' :: 'p' :: ';' :: rest => '&' :: unescape rest
  | '&' :: 'l' :: 't' :: ';' :: rest => '<' :: unescape rest
  | '&' :: 'g' :: 't' :: ';' :: rest => '>' :: unescape rest
  | c :: rest => c :: unescape rest

/-- Reads one element: its tag up to the first closing angle bracket, of which all between the
outer quotes is the class; its text up to the next opening one, with which its end tag begins. -/
def readElement? (markup : Text) : Option (Node × Text) :=
  match markup.dropPrefix? "<span class=\"".toList with
  | none => none
  | some tag =>
      let content := (tag.dropWhile (· != '>')).tail
      match (tag.takeWhile (· != '>')).dropSuffix? ['"'],
        (content.dropWhile (· != '<')).dropPrefix? "</span>".toList with
      | some className, some rest =>
          some (.element (unescape className) (unescape (content.takeWhile (· != '<'))), rest)
      | _, _ => none

theorem length_lt_of_readElement? {markup rest : Text} {node : Node}
    (success : readElement? markup = some (node, rest)) : rest.length < markup.length := by
  unfold readElement? at success
  split at success
  · cases success
  · next tag opened =>
      dsimp only at success
      split at success
      · next className ends _ ended =>
          obtain ⟨opening, whole, same⟩ := List.dropPrefix?_eq_some_iff.mp opened
          obtain ⟨closing, behind, _⟩ := List.dropPrefix?_eq_some_iff.mp ended
          have positive : opening.length = 13 := by
            rw [beq_iff_eq.mp same]
            rfl
          have later := Fragment.length_dropWhile_le (· != '<') (tag.dropWhile (· != '>')).tail
          have inside := Fragment.length_dropWhile_le (· != '>') tag
          rw [behind, List.length_append, List.length_tail] at later
          have shape : ends = rest := (Prod.mk.inj (Option.some.inj success)).2
          rw [whole, ← shape, List.length_append]
          omega
      · cases success

def decodeBody : Text → Option (List Node)
  | [] => some []
  | c :: rest =>
      if c = '<' then
        match _read : readElement? (c :: rest) with
        | some (node, after) => (decodeBody after).map (node :: ·)
        | none => none
      else
        (decodeBody (rest.dropWhile (· != '<'))).map
          (.run (unescape (c :: rest.takeWhile (· != '<'))) :: ·)
termination_by markup => markup.length
decreasing_by
  · exact length_lt_of_readElement? _read
  · have bound := Fragment.length_dropWhile_le (· != '<') rest
    rw [List.length_cons]
    omega

/-- Cuts markup into bare runs and elements, the line feed behind all of them left out. -/
def decode (markup : Text) : Option (List Node) :=
  (markup.dropSuffix? ['\n']).bind decodeBody

/-- Plain text in one piece, or nothing if it is empty. -/
def plainRun (text : Text) : List Fragment :=
  if text = [] then [] else [⟨.plain, text⟩]

/-- Fragments with each maximal run of plain ones put together, and left out if it has no text. -/
def regroup : List Fragment → List Fragment
  | [] => []
  | part :: rest =>
      if part.category.isPlain then
        plainRun (Fragment.join (part :: rest.takeWhile (·.category.isPlain))) ++
          regroup (rest.dropWhile (·.category.isPlain))
      else part :: regroup rest
termination_by parts => parts.length
decreasing_by
  · have bound := (List.dropWhile_suffix (l := rest) (·.category.isPlain)).length_le
    rw [List.length_cons]
    omega
  · exact Nat.lt_succ_self _

/-- What a fragment is in markup: text alone, or an element of its class. -/
def nodeOf (classPrefix : Text) (fragment : Fragment) : Node :=
  match fragment.category.cssClass with
  | some cssClass => .element (classPrefix ++ cssClass.toList) fragment.text
  | none => .run fragment.text

/-- How many elements are open behind each tag. -/
def tagDepths (depth : Nat) : Text → List Nat
  | [] => []
  | '<' :: '/' :: rest => (depth - 1) :: tagDepths (depth - 1) rest
  | '<' :: rest => (depth + 1) :: tagDepths (depth + 1) rest
  | _ :: rest => tagDepths depth rest

theorem unescape_cons {c : Char} (other : c ≠ '&') (rest : Text) :
    unescape (c :: rest) = c :: unescape rest := by
  rw [unescape]
  · rintro after rfl
    exact absurd rfl other
  · rintro after rfl
    exact absurd rfl other
  · rintro after rfl
    exact absurd rfl other

theorem tagDepths_cons {c : Char} (other : c ≠ '<') (depth : Nat) (rest : Text) :
    tagDepths depth (c :: rest) = tagDepths depth rest := by
  rw [tagDepths]
  · rintro after rfl
    exact absurd rfl other
  · rintro rfl
    exact absurd rfl other

theorem tagDepths_open {text : Text} (depth : Nat) (opens : text.head? ≠ some '/') :
    tagDepths depth ('<' :: text) = (depth + 1) :: tagDepths (depth + 1) text := by
  rw [tagDepths]
  rintro after rfl
  exact absurd rfl opens

theorem tagDepths_append {text : Text} (bare : ∀ c ∈ text, c ≠ '<') (depth : Nat) (rest : Text) :
    tagDepths depth (text ++ rest) = tagDepths depth rest := by
  induction text with
  | nil => rfl
  | cons c more ih =>
      obtain ⟨first, later⟩ := List.forall_mem_cons.mp bare
      rw [List.cons_append, tagDepths_cons first, ih later]

/-- Undoing the entities of an escaped text gives the text, whatever stands behind it. -/
theorem unescape_escape_append (text rest : Text) :
    unescape (escape text ++ rest) = text ++ unescape rest := by
  induction text with
  | nil => rfl
  | cons c more ih =>
      have shape : escape (c :: more) = escapeChar c ++ escape more := rfl
      rw [shape, List.append_assoc, List.cons_append]
      unfold escapeChar
      split
      · exact congrArg ('&' :: ·) ih
      · exact congrArg ('<' :: ·) ih
      · exact congrArg ('>' :: ·) ih
      · next amp _ _ =>
          rw [List.singleton_append, unescape_cons amp, ih]

theorem unescape_escape (text : Text) : unescape (escape text) = text := by
  simpa [unescape] using unescape_escape_append text []

theorem unescape_of_unentitied {text : Text} (bare : ∀ c ∈ text, c ≠ '&') :
    unescape text = text := by
  induction text with
  | nil => rfl
  | cons c rest ih =>
      obtain ⟨first, later⟩ := List.forall_mem_cons.mp bare
      rw [unescape_cons first, ih later]

theorem not_angle_of_mem_escape {text : Text} {c : Char} (member : c ∈ escape text) :
    c ≠ '<' ∧ c ≠ '>' := by
  have entities : ∀ entity ∈ ["&amp;".toList, "&lt;".toList, "&gt;".toList],
      '<' ∉ entity ∧ '>' ∉ entity := by decide
  have apart : ∀ entity ∈ ["&amp;".toList, "&lt;".toList, "&gt;".toList], c ∈ entity →
      c ≠ '<' ∧ c ≠ '>' := by
    intro entity listed inside
    obtain ⟨less, greater⟩ := entities entity listed
    exact ⟨fun same => less (same ▸ inside), fun same => greater (same ▸ inside)⟩
  obtain ⟨source, _, written⟩ := List.mem_flatMap.mp member
  unfold escapeChar at written
  split at written
  · exact apart _ (by simp) written
  · exact apart _ (by simp) written
  · exact apart _ (by simp) written
  · next _ less greater =>
      rw [List.mem_singleton.mp written]
      exact ⟨less, greater⟩

/-- Class names are small letters, of which none is written as an entity. -/
theorem isLower_of_mem_cssClass {category : Category} {cssClass : String}
    (named : category.cssClass = some cssClass) : ∀ c ∈ cssClass.toList, c.isLower = true := by
  rw [← List.all_eq_true]
  cases category <;> cases named <;> decide

theorem ne_of_isLower {c other : Char} (lower : c.isLower = true) (sign : other.isLower = false) :
    c ≠ other := by
  rintro rfl
  rw [lower] at sign
  cases sign

theorem cssClass_injective {first second : Category} (same : first.cssClass = second.cssClass) :
    first = second := by
  revert same
  cases first <;> cases second <;> decide

/-- An element, cut where its tag ends and where its text ends. -/
theorem element_append (classPrefix : Text) (cssClass : String) (text rest : Text) :
    element classPrefix cssClass text ++ rest =
      "<span class=\"".toList ++ (escape classPrefix ++ cssClass.toList ++ ['"'] ++
        '>' :: (escape text ++ ("</span>".toList ++ rest))) := by
  have closing : "\">".toList = ['"', '>'] := by decide
  -- The tags are put out of sight, or they would be taken apart letter by letter.
  delta element
  rw [closing]
  generalize "<span class=\"".toList = opening, "</span>".toList = ending
  simp

section Elements

variable {cssClass : String} (small : ∀ c ∈ cssClass.toList, c.isLower = true)
include small

theorem unescape_className (classPrefix : Text) :
    unescape (escape classPrefix ++ cssClass.toList) = classPrefix ++ cssClass.toList := by
  rw [unescape_escape_append, unescape_of_unentitied]
  intro c member
  exact ne_of_isLower (small c member) (by decide)

theorem className_unclosed (classPrefix : Text) :
    ∀ c ∈ escape classPrefix ++ cssClass.toList ++ ['"'], c ≠ '<' ∧ c ≠ '>' := by
  intro c member
  rcases List.mem_append.mp member with front | quote
  · rcases List.mem_append.mp front with escaped | named
    · exact not_angle_of_mem_escape escaped
    · exact ⟨ne_of_isLower (small c named) (by decide), ne_of_isLower (small c named) (by decide)⟩
  · rw [List.mem_singleton.mp quote]
    decide

/-- An element that was rendered is read back whole, and no more than it. -/
theorem readElement?_element (classPrefix text rest : Text) :
    readElement? (element classPrefix cssClass text ++ rest) =
      some (.element (classPrefix ++ cssClass.toList) text, rest) := by
  let className := escape classPrefix ++ cssClass.toList
  let behind := escape text ++ ("</span>".toList ++ rest)
  have shape : element classPrefix cssClass text ++ rest =
      "<span class=\"".toList ++ (className ++ ['"'] ++ '>' :: behind) :=
    element_append classPrefix cssClass text rest
  have unclosed : ∀ c ∈ className ++ ['"'], (c != '>') = true := by
    intro c member
    simpa using (className_unclosed small classPrefix c member).2
  have bare : ∀ c ∈ escape text, (c != '<') = true := by
    intro c member
    simpa using (not_angle_of_mem_escape member).1
  have tagEnds : Fragment.startsWith (· != '>') ('>' :: behind) = false := rfl
  have textEnds : Fragment.startsWith (· != '<') ("</span>".toList ++ rest) = false := by
    simp [Fragment.startsWith]
  have opened : (element classPrefix cssClass text ++ rest).dropPrefix? "<span class=\"".toList =
      some (className ++ ['"'] ++ '>' :: behind) := by
    rw [shape]
    exact List.dropPrefix?_append_of_beq _ (beq_self_eq_true _)
  have quoted : (className ++ ['"']).dropSuffix? ['"'] = some className :=
    List.dropSuffix?_eq_some_iff.mpr ⟨['"'], rfl, beq_self_eq_true _⟩
  have ended : ("</span>".toList ++ rest).dropPrefix? "</span>".toList = some rest :=
    List.dropPrefix?_append_of_beq _ (beq_self_eq_true _)
  rw [readElement?, opened]
  dsimp only
  rw [Fragment.takeWhile_run unclosed tagEnds, Fragment.dropWhile_run unclosed tagEnds, quoted,
    List.tail_cons, Fragment.takeWhile_run bare textEnds, Fragment.dropWhile_run bare textEnds,
    ended]
  dsimp only
  rw [unescape_className small, unescape_escape]

theorem decodeBody_element (classPrefix text rest : Text) :
    decodeBody (element classPrefix cssClass text ++ rest) =
      (decodeBody rest).map (.element (classPrefix ++ cssClass.toList) text :: ·) := by
  have read := readElement?_element small classPrefix text rest
  obtain ⟨tail, shape⟩ : ∃ tail, element classPrefix cssClass text ++ rest = '<' :: tail :=
    ⟨_, rfl⟩
  rw [shape] at read ⊢
  rw [decodeBody, if_pos rfl]
  split
  · next node after success =>
      rw [read, Option.some.injEq, Prod.mk.injEq] at success
      rw [← success.1, ← success.2]
  · next failure =>
      rw [read] at failure
      cases failure

/-- An element opens and closes, and nothing in between is a tag. -/
theorem tagDepths_element (classPrefix text rest : Text) :
    tagDepths 0 (element classPrefix cssClass text ++ rest) = 1 :: 0 :: tagDepths 0 rest := by
  have opening : "<span class=\"".toList = '<' :: 's' :: "pan class=\"".toList := by decide
  have letters : ∀ c ∈ 's' :: "pan class=\"".toList, c ≠ '<' :=
    List.forall_mem_ne'.mpr (by decide)
  have ending : "</span>".toList = '<' :: '/' :: "span>".toList := by decide
  have closing : ∀ c ∈ "span>".toList, c ≠ '<' := List.forall_mem_ne'.mpr (by decide)
  have named : ∀ c ∈ escape classPrefix ++ cssClass.toList ++ ['"'], c ≠ '<' :=
    fun c member => (className_unclosed small classPrefix c member).1
  have bare : ∀ c ∈ '>' :: escape text, c ≠ '<' := by
    rw [List.forall_mem_cons]
    exact ⟨by decide, fun c member => (not_angle_of_mem_escape member).1⟩
  have tagged : tagDepths 0 ('<' :: ('s' :: "pan class=\"".toList ++
      (escape classPrefix ++ cssClass.toList ++ ['"'] ++ ('>' :: escape text ++
        ('<' :: '/' :: ("span>".toList ++ rest)))))) = 1 :: 0 :: tagDepths 0 rest := by
    rw [tagDepths_open 0 (by simp), tagDepths_append letters, tagDepths_append named,
      tagDepths_append bare, tagDepths, tagDepths_append closing]
  rw [element_append, opening, ending]
  exact tagged

end Elements

theorem decodeBody_run {text rest : Text} (nonempty : text ≠ []) (bare : ∀ c ∈ text, c ≠ '<')
    (ends : Fragment.startsWith (· != '<') rest = false) :
    decodeBody (text ++ rest) = (decodeBody rest).map (.run (unescape text) :: ·) := by
  obtain ⟨c, more, rfl⟩ := List.exists_cons_of_ne_nil nonempty
  obtain ⟨first, later⟩ := List.forall_mem_cons.mp bare
  have inside : ∀ c ∈ more, (c != '<') = true := by
    intro c member
    simpa using later c member
  rw [List.cons_append, decodeBody, if_neg first, Fragment.takeWhile_run inside ends,
    Fragment.dropWhile_run inside ends]

def body (classPrefix : Text) (parts : List Fragment) : Text :=
  parts.flatMap (renderFragment classPrefix)

@[simp] theorem body_nil (classPrefix : Text) : body classPrefix [] = [] := rfl

@[simp] theorem body_cons (classPrefix : Text) (part : Fragment) (rest : List Fragment) :
    body classPrefix (part :: rest) =
      renderFragment classPrefix part ++ body classPrefix rest := rfl

@[simp] theorem body_append (classPrefix : Text) (first second : List Fragment) :
    body classPrefix (first ++ second) = body classPrefix first ++ body classPrefix second := by
  simp [body]

theorem renderFragment_of_plain (classPrefix : Text) {part : Fragment}
    (plain : part.category.isPlain = true) :
    renderFragment classPrefix part = escape part.text := by
  have category : part.category = .plain := by simpa [Category.isPlain] using plain
  rw [renderFragment, category]
  rfl

/-- A fragment that is not plain is an element, in markup and read back. -/
theorem exists_cssClass {part : Fragment} (coloured : ¬ part.category.isPlain = true) :
    ∃ cssClass, part.category.cssClass = some cssClass := by
  apply Option.ne_none_iff_exists'.mp
  intro none
  have plain := (Category.cssClass_eq_none_iff part.category).mp none
  exact coloured (by simp [Category.isPlain, plain])

/-- The markup of plain fragments is that of their text in one piece. -/
theorem body_of_plain (classPrefix : Text) {parts : List Fragment}
    (plain : ∀ part ∈ parts, part.category.isPlain = true) :
    body classPrefix parts = escape (Fragment.join parts) := by
  induction parts with
  | nil => rfl
  | cons part rest ih =>
      obtain ⟨first, later⟩ := List.forall_mem_cons.mp plain
      rw [body_cons, renderFragment_of_plain classPrefix first, ih later, Fragment.join_cons,
        escape_append]

/-- In front of fragments that do not begin with a plain one, a run of text has its end. -/
theorem startsWith_body (classPrefix : Text) {parts : List Fragment}
    (coloured : ∀ part, parts.head? = some part → ¬ part.category.isPlain = true) :
    Fragment.startsWith (· != '<') (body classPrefix parts) = false := by
  cases parts with
  | nil => rfl
  | cons part rest =>
      obtain ⟨cssClass, named⟩ := exists_cssClass (coloured part rfl)
      rw [body_cons, renderFragment, named]
      rfl

theorem not_isPlain_of_head?_dropWhile (parts : List Fragment) {part : Fragment}
    (first : (parts.dropWhile (·.category.isPlain)).head? = some part) :
    ¬ part.category.isPlain = true := by
  have stops := List.head?_dropWhile_not (·.category.isPlain) parts
  rw [first] at stops
  simpa using stops

/-- Fragments that begin with plain ones, cut behind those. -/
theorem body_cons_of_plain (classPrefix : Text) {part : Fragment} (rest : List Fragment)
    (plain : part.category.isPlain = true) :
    body classPrefix (part :: rest) =
      escape (Fragment.join (part :: rest.takeWhile (·.category.isPlain))) ++
        body classPrefix (rest.dropWhile (·.category.isPlain)) := by
  have every : ∀ other ∈ part :: rest.takeWhile (·.category.isPlain),
      other.category.isPlain = true := by
    rw [List.forall_mem_cons]
    refine ⟨plain, ?_⟩
    intro other member
    exact List.mem_takeWhile_imp (p := fun part : Fragment => part.category.isPlain) member
  rw [← body_of_plain classPrefix every, ← body_append, List.cons_append,
    List.takeWhile_append_dropWhile]

@[simp] theorem body_plainRun (classPrefix text : Text) :
    body classPrefix (plainRun text) = escape text := by
  unfold plainRun
  split
  · next empty => rw [empty]; rfl
  · exact List.append_nil _

@[simp] theorem join_plainRun (text : Text) : Fragment.join (plainRun text) = text := by
  unfold plainRun
  split
  · next empty => rw [empty]; rfl
  · exact List.append_nil _

/-- Putting plain fragments together changes nothing in the markup. -/
theorem body_regroup (classPrefix : Text) (parts : List Fragment) :
    body classPrefix (regroup parts) = body classPrefix parts := by
  fun_induction regroup parts with
  | case1 => rfl
  | case2 part rest plain ih =>
      rw [body_append, body_plainRun, ih, body_cons_of_plain classPrefix rest plain]
  | case3 part rest coloured ih => rw [body_cons, body_cons, ih]

theorem join_regroup (parts : List Fragment) :
    Fragment.join (regroup parts) = Fragment.join parts := by
  fun_induction regroup parts with
  | case1 => rfl
  | case2 part rest plain ih =>
      rw [Fragment.join_append, join_plainRun, ih, ← Fragment.join_append, List.cons_append,
        List.takeWhile_append_dropWhile]
  | case3 part rest coloured ih => rw [Fragment.join_cons, Fragment.join_cons, ih]

/-- Plain text is read back in one piece if a tag or nothing stands behind it. -/
theorem decodeBody_plainRun (classPrefix text : Text) {rest : Text} {nodes : List Node}
    (ends : Fragment.startsWith (· != '<') rest = false) (later : decodeBody rest = some nodes) :
    decodeBody (escape text ++ rest) =
      some ((plainRun text).map (nodeOf classPrefix) ++ nodes) := by
  by_cases empty : text = []
  · rw [empty, escape_nil, List.nil_append, later]
    rfl
  · have written : escape text ≠ [] := by
      intro none
      apply empty
      rw [← unescape_escape text, none]
      rfl
    have bare : ∀ c ∈ escape text, c ≠ '<' := fun c member => (not_angle_of_mem_escape member).1
    rw [decodeBody_run written bare ends, unescape_escape, later, plainRun, if_neg empty]
    rfl

/-- Fragments are read back from their markup, plain ones put together. -/
theorem decodeBody_body (classPrefix : Text) (parts : List Fragment) :
    decodeBody (body classPrefix parts) = some ((regroup parts).map (nodeOf classPrefix)) := by
  fun_induction regroup parts with
  | case1 => rw [body_nil, decodeBody]; rfl
  | case2 part rest plain ih =>
      have ends := startsWith_body classPrefix
        (fun _ first => not_isPlain_of_head?_dropWhile rest first)
      rw [body_cons_of_plain classPrefix rest plain, decodeBody_plainRun classPrefix _ ends ih,
        List.map_append]
  | case3 part rest coloured ih =>
      obtain ⟨cssClass, named⟩ := exists_cssClass coloured
      have small := isLower_of_mem_cssClass named
      rw [body_cons, renderFragment, named]
      dsimp only
      rw [decodeBody_element small, ih, List.map_cons, nodeOf, named]
      rfl

theorem text_nodeOf (classPrefix : Text) (fragment : Fragment) :
    (nodeOf classPrefix fragment).text = fragment.text := by
  unfold nodeOf
  split <;> rfl

/-- With one class prefix, no two fragments look the same in markup. -/
theorem nodeOf_injective (classPrefix : Text) : Function.Injective (nodeOf classPrefix) := by
  rintro ⟨category, text⟩ ⟨other, otherText⟩ same
  have texts : text = otherText := by
    simpa only [text_nodeOf] using congrArg Node.text same
  have classes : category.cssClass = other.cssClass := by
    unfold nodeOf at same
    dsimp only at same
    split at same
    · next cssClass named =>
        split at same
        · next otherClass otherNamed =>
            have joined := (Node.element.inj same).1
            rw [named, otherNamed, String.toList_inj.mp (List.append_cancel_left joined)]
        · cases same
    · next named =>
        split at same
        · cases same
        · next otherNamed => rw [named, otherNamed]
  rw [texts, cssClass_injective classes]

theorem decode_render (classPrefix : Text) (parts : List Fragment) :
    decode (render classPrefix parts) = some ((regroup parts).map (nodeOf classPrefix)) := by
  have last : (render classPrefix parts).dropSuffix? ['\n'] = some (body classPrefix parts) :=
    List.dropSuffix?_eq_some_iff.mpr ⟨['\n'], rfl, beq_self_eq_true _⟩
  rw [decode, last, Option.bind_some, decodeBody_body]

theorem tagDepths_body (classPrefix : Text) (parts : List Fragment) (rest : Text) :
    tagDepths 0 (body classPrefix parts ++ rest) =
      (parts.filter (!·.category.isPlain)).flatMap (fun _ => [1, 0]) ++ tagDepths 0 rest := by
  induction parts with
  | nil => rfl
  | cons part more ih =>
      rw [body_cons, List.append_assoc]
      by_cases plain : part.category.isPlain = true
      · rw [renderFragment_of_plain classPrefix plain,
          tagDepths_append (fun c member => (not_angle_of_mem_escape member).1), ih,
          List.filter_cons_of_neg (by simp [plain])]
      · obtain ⟨cssClass, named⟩ := exists_cssClass plain
        rw [renderFragment, named]
        dsimp only
        rw [tagDepths_element (isLower_of_mem_cssClass named), ih,
          List.filter_cons_of_pos (by simp [plain])]
        rfl

/-- The markup of fragments tells them apart up to the grouping of plain text, and no more. -/
theorem render_eq_iff (classPrefix : Text) (parts others : List Fragment) :
    render classPrefix parts = render classPrefix others ↔ regroup parts = regroup others := by
  constructor
  · intro same
    have decoded := decode_render classPrefix parts
    rw [same, decode_render, Option.some.injEq] at decoded
    exact (List.map_injective_iff.mpr (nodeOf_injective classPrefix) decoded).symm
  · intro same
    have bodies : body classPrefix parts = body classPrefix others := by
      rw [← body_regroup, same, body_regroup]
    exact congrArg (· ++ ['\n']) bodies

theorem flatMap_text_nodes (classPrefix : Text) (parts : List Fragment) :
    ((regroup parts).map (nodeOf classPrefix)).flatMap Node.text = Fragment.join parts := by
  rw [List.flatMap_map, ← join_regroup parts, Fragment.join]
  exact congrArg (fun text => (regroup parts).flatMap text) (funext (text_nodeOf classPrefix))

/-- Nothing is lost in markup: reading it back gives every fragment in order, each one that is not
plain as an element of its class, plain ones put together. No element is open when another begins;
markup with one class prefix is the same for fragments that differ in the grouping of plain text
only; and the markup of a source shows the source. -/
theorem render_lossless (classPrefix : Text) (parts : List Fragment) :
    decode (render classPrefix parts) = some ((regroup parts).map (nodeOf classPrefix)) ∧
      tagDepths 0 (render classPrefix parts) =
        (parts.filter (!·.category.isPlain)).flatMap (fun _ => [1, 0]) ∧
      (∀ others, render classPrefix parts = render classPrefix others ↔
        regroup parts = regroup others) ∧
      ∀ source, (decode (render classPrefix ((scan source).map Token.toFragment))).map
        (List.flatMap Node.text) = some source := by
  refine ⟨decode_render classPrefix parts, ?_, render_eq_iff classPrefix parts, ?_⟩
  · have depths := tagDepths_body classPrefix parts ['\n']
    rwa [show tagDepths 0 ['\n'] = [] from rfl, List.append_nil] at depths
  · intro source
    have scanned : (scan source).map Token.toFragment = fragments source :=
      map_toFragment_locate 0 (fragments source)
    rw [scanned, decode_render, Option.map_some, flatMap_text_nodes, join_fragments]

end Dabara.Markup
