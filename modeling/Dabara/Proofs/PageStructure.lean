import Dabara.CommandLine.Plan
import Dabara.Proofs.PageTags

set_option autoImplicit false

namespace Dabara.Markup

/-- A class prefix that stands for itself wherever a page has it: no quote ends a class, no entity
stands for another character and no end tag ends the stylesheet. -/
structure Harmless (classPrefix : Text) : Prop where
  unquoted : '"' ∉ classPrefix
  unentitied : ∀ entity ∈ entities, ¬ entity <:+: classPrefix
  unclosed : ∀ ending ∈ classPrefix.tails, closes "style".toList ending = false

instance (classPrefix : Text) : Decidable (Harmless classPrefix) :=
  decidable_of_iff
    ('"' ∉ classPrefix ∧ (∀ entity ∈ entities, ¬ entity <:+: classPrefix) ∧
      ∀ ending ∈ classPrefix.tails, closes "style".toList ending = false)
    ⟨fun ⟨unquoted, unentitied, unclosed⟩ => ⟨unquoted, unentitied, unclosed⟩,
      fun harmless => ⟨harmless.unquoted, harmless.unentitied, harmless.unclosed⟩⟩

def headTags : List Tag :=
  [.declaration "DOCTYPE html".toList,
    .opening "html".toList [("lang".toList, "ha".toList)],
    .opening "head".toList [],
    .opening "meta".toList [("charset".toList, "utf-8".toList)],
    .opening "title".toList [],
    .closing "title".toList,
    .opening "style".toList []]

/-- The tags of a fragment: none for plain text, else those of one element of its class. -/
def spanTags (classPrefix : Text) (category : Category) : List Tag :=
  match category.cssClass with
  | some cssClass =>
      [.opening "span".toList [("class".toList, classPrefix ++ cssClass.toList)],
        .closing "span".toList]
  | none => []

def bodyTags (codeClass : Text) (spans : List Tag) : List Tag :=
  [.closing "head".toList, .opening "body".toList [],
    .opening "pre".toList [("class".toList, codeClass)]] ++ spans ++
    [.closing "pre".toList, .closing "body".toList, .closing "html".toList]

/-- The tags that a page is meant to have. -/
def pageTags (classPrefix : Text) (tokens : List Token) : List Tag :=
  headTags ++ .closing "style".toList :: bodyTags (classPrefix ++ "code".toList)
    (tokens.flatMap fun token => spanTags classPrefix token.category)

theorem unescape_codeClass_iff (classPrefix : Text) :
    unescape (classPrefix ++ "code".toList) = classPrefix ++ "code".toList ↔
      ∀ entity ∈ entities, ¬ entity <:+: classPrefix := by
  rw [unescape_eq_self_iff]
  refine forall₂_congr fun entity listed => not_congr ⟨?_, ?_⟩
  · exact infix_of_infix_append listed (by decide)
  · exact fun within => within.trans (List.prefix_append _ _).isInfix

/-- Two cuts of a text are the same cut if the sign at neither stands in front of the other. -/
theorem eq_of_append_cons {front other rest more : Text} {a b : Char}
    (same : front ++ a :: rest = other ++ b :: more) (left : b ∉ front) (right : a ∉ other) :
    front = other := by
  rcases List.append_eq_append_iff.mp same with ⟨gap, longer, shape⟩ | ⟨gap, longer, shape⟩
  · cases gap with
    | nil => rw [longer, List.append_nil]
    | cons c between =>
        rw [(List.cons.inj shape).1, longer] at right
        simp at right
  · cases gap with
    | nil => rw [longer, List.append_nil]
    | cons c between =>
        rw [(List.cons.inj shape).1, longer] at left
        simp at left

theorem toLower_of_isLower {c : Char} (lower : c.isLower = true) : c.toLower = c := by
  have small : 'a'.val ≤ c.val := by
    unfold Char.isLower at lower
    exact of_decide_eq_true (Bool.and_eq_true_iff.mp lower).1
  unfold Char.toLower
  apply dif_neg
  rintro ⟨_, large⟩
  exact absurd (UInt32.le_trans small large) (by decide)

theorem not_isLower_of_endsName {c : Char} (ends : endsName c = true) : c.isLower = false := by
  have signs : ['>', '/', ' ', '\t', '\n', '\r', '\x0c'].all (!·.isLower) = true := by decide
  simpa using List.all_eq_true.mp signs c (of_decide_eq_true ends)

/-- The names that stand behind the class prefix: small letters, which do not complete an end tag
of the stylesheet. -/
structure ClassName (name : Text) : Prop where
  small : ∀ c ∈ name, c.isLower = true
  apart : ¬ name <:+ "</style".toList

theorem ClassName.unquoted {name : Text} (named : ClassName name) : '"' ∉ name :=
  fun member => ne_of_isLower (named.small '"' member) (by decide) rfl

theorem className_code : ClassName "code".toList :=
  ⟨List.all_eq_true.mp (by decide), by decide⟩

theorem className_cssClass {category : Category} {cssClass : String}
    (named : category.cssClass = some cssClass) : ClassName cssClass.toList := by
  refine ⟨isLower_of_mem_cssClass named, ?_⟩
  cases category <;> cases named <;> decide

/-- An end tag that begins in front of a class name and goes on into it takes it whole: the first
sign that can end the tag is the blank behind the name. -/
theorem suffix_of_straddling {ending inside cssClass rest more : Text} {c : Char}
    (small : ∀ c ∈ cssClass, c.isLower = true) (ended : endsName c = true)
    (lowered : (ending ++ inside).map Char.toLower = "</style".toList)
    (cut : cssClass ++ ' ' :: rest = inside ++ c :: more) : cssClass <:+ "</style".toList := by
  rw [List.map_append] at lowered
  have blank : ' ' ∉ inside := by
    intro member
    have lower : ' ' ∈ "</style".toList := by
      rw [← lowered]
      exact List.mem_append_right _ (List.mem_map_of_mem (f := Char.toLower) member)
    revert lower
    decide
  have sign : c ∉ cssClass := fun member =>
    ne_of_isLower (small c member) (not_isLower_of_endsName ended) rfl
  have same : cssClass = inside := eq_of_append_cons cut sign blank
  have kept : cssClass.map Char.toLower = cssClass :=
    (List.map_congr_left fun c member => toLower_of_isLower (small c member)).trans
      (List.map_id cssClass)
  rw [← same, kept] at lowered
  exact ⟨_, lowered⟩

/-- No end tag of the stylesheet begins in a text and ends in the class name behind it. -/
theorem closes_className {ending cssClass : Text} (named : ClassName cssClass)
    (unclosed : closes "style".toList ending = false) (rest : Text) :
    closes "style".toList (ending ++ (cssClass ++ ' ' :: rest)) = false := by
  rw [Bool.eq_false_iff] at unclosed ⊢
  intro closed
  obtain ⟨spelled, c, more, shape, spelling, ended⟩ := closes_iff.mp closed
  have lowered : ('<' :: '/' :: spelled).map Char.toLower = "</style".toList := by
    rw [List.map_cons, List.map_cons, spelling]
    decide
  have whole : ending ++ (cssClass ++ ' ' :: rest) = '<' :: '/' :: spelled ++ [c] ++ more := by
    rw [shape]
    simp
  rcases List.append_eq_append_iff.mp whole with ⟨within, tag, after⟩ | ⟨behind, longer, _⟩
  · rcases List.eq_nil_or_concat within with rfl | ⟨inside, last, rfl⟩
    · apply unclosed
      rw [List.append_nil] at tag
      exact closes_iff.mpr ⟨spelled, c, [], by rw [← tag]; simp, spelling, ended⟩
    · rw [List.concat_eq_append, ← List.append_assoc] at tag
      rw [List.concat_eq_append, List.append_assoc, List.singleton_append] at after
      obtain ⟨front, single⟩ := List.append_inj' tag rfl
      obtain rfl := List.singleton_inj.mp single
      rw [front] at lowered
      exact named.apart (suffix_of_straddling named.small ended lowered after)
  · apply unclosed
    rw [longer]
    exact closes_iff.mpr ⟨spelled, c, behind, by simp, spelling, ended⟩

/-- A class in the stylesheet, with the blank behind it. -/
theorem reads_className {classPrefix cssClass : Text}
    (unclosed : ∀ ending ∈ classPrefix.tails, closes "style".toList ending = false)
    (named : ClassName cssClass) (tags : List Tag) :
    Reading.Reads ⟨.raw "style".toList, tags⟩ (classPrefix ++ (cssClass ++ [' ']))
      ⟨.raw "style".toList, tags⟩ := by
  apply Reading.reads_raw
  rintro rest ending ⟨front, shape⟩ nonempty
  rcases List.append_eq_append_iff.mp shape with ⟨within, whole, rfl⟩ | ⟨within, _, tail⟩
  · have suffix : within ∈ classPrefix.tails := (List.mem_tails _ _).mpr ⟨front, whole.symm⟩
    have closed := closes_className named (unclosed within suffix) rest
    rwa [List.append_assoc, List.append_assoc, List.singleton_append]
  · obtain ⟨c, more, rfl⟩ := List.exists_cons_of_ne_nil nonempty
    apply closes_cons
    have member : c ∈ cssClass ++ [' '] := by simp [tail]
    rcases List.mem_append.mp member with letter | blank
    · exact ne_of_isLower (named.small c letter) (by decide)
    · rw [List.mem_singleton.mp blank]
      decide

/-- Text that begins no tag and ends no value. -/
def Inert (text : Text) : Prop :=
  '<' ∉ text ∧ '"' ∉ text

instance (text : Text) : Decidable (Inert text) :=
  inferInstanceAs (Decidable ('<' ∉ text ∧ '"' ∉ text))

theorem Inert.append {front back : Text} (left : Inert front) (right : Inert back) :
    Inert (front ++ back) :=
  ⟨List.not_mem_append left.1 right.1, List.not_mem_append left.2 right.2⟩

theorem inert_hexByte (byte : UInt8) : Inert (Color.hexByte byte) := by
  have digits : ∀ digit < 16, Inert [Nat.digitChar digit] := by decide
  have bound : byte.toNat < 256 := byte.toNat_lt
  exact (digits (byte.toNat / 16) (by omega)).append (digits (byte.toNat % 16) (by omega))

theorem inert_color (color : Color) : Inert color.css := by
  have sign : Inert ['#'] := by decide
  exact ((sign.append (inert_hexByte _)).append (inert_hexByte _)).append (inert_hexByte _)

theorem inert_style (style : Style) : Inert style.css := by
  have color : Inert ("color: ".toList ++ style.foreground.css ++ ";".toList) :=
    (Inert.append (by decide) (inert_color _)).append (by decide)
  unfold Style.css
  refine (color.append ?_).append ?_
  · split <;> decide
  · split <;> decide

/-- What holds of inert text, of classes and of texts put together holds of a stylesheet. -/
theorem stylesheet_induction {holds : Text → Prop} {classPrefix : Text} {theme : Theme}
    (listed : theme ∈ Theme.builtins)
    (joined : ∀ {front back}, holds front → holds back → holds (front ++ back))
    (inert : ∀ {text}, Inert text → holds text)
    (classes : ∀ {cssClass}, ClassName cssClass → holds (classPrefix ++ (cssClass ++ [' ']))) :
    holds (theme.stylesheet classPrefix) := by
  have rules : ∀ {cssClass declarations}, ClassName cssClass → Inert declarations →
      holds (Theme.rule (classPrefix ++ cssClass) declarations) := by
    intro cssClass declarations named quiet
    have shape : Theme.rule (classPrefix ++ cssClass) declarations =
        ['.'] ++ (classPrefix ++ (cssClass ++ [' '])) ++
          ("\x7b ".toList ++ declarations ++ " \x7d\n".toList) := by
      simp [Theme.rule]
    rw [shape]
    refine joined (joined (inert (by decide)) (classes named)) (inert ?_)
    exact (Inert.append (by decide) quiet).append (by decide)
  have names : ∀ theme ∈ Theme.builtins, Inert theme.name.toList := by decide
  unfold Theme.stylesheet
  refine joined (joined (inert ?_) (rules className_code ?_)) ?_
  · exact (Inert.append (by decide) (names theme listed)).append (by decide)
  · have colors := (Inert.append (by decide : Inert "background: ".toList)
      (inert_color theme.background)).append (by decide : Inert "; color: ".toList)
    exact (colors.append (inert_color _)).append (by decide)
  · generalize Category.all = categories
    induction categories with
    | nil => exact inert ⟨List.not_mem_nil, List.not_mem_nil⟩
    | cons category more ih =>
        refine joined ?_ ih
        dsimp only
        split
        · next cssClass named => exact rules (className_cssClass named) (inert_style _)
        · exact inert (by decide)

def pageRule : Text :=
  "pre \x7b margin: 0; padding: 1em; font-family: monospace; \x7d\n".toList

def styleText (theme : Theme) (classPrefix : Text) : Text :=
  theme.stylesheet classPrefix ++ pageRule

theorem inert_pageRule : Inert pageRule := by
  decide +kernel

theorem reads_styleText {theme : Theme} (listed : theme ∈ Theme.builtins) {classPrefix : Text}
    (unclosed : ∀ ending ∈ classPrefix.tails, closes "style".toList ending = false)
    (tags : List Tag) :
    Reading.Reads ⟨.raw "style".toList, tags⟩ (styleText theme classPrefix)
      ⟨.raw "style".toList, tags⟩ := by
  have inert : ∀ {text}, Inert text →
      Reading.Reads ⟨.raw "style".toList, tags⟩ text ⟨.raw "style".toList, tags⟩ :=
    fun quiet => Reading.reads_raw_of_bare tags _ quiet.1
  rw [styleText]
  refine Reading.Reads.append ?_ (inert inert_pageRule)
  exact stylesheet_induction listed Reading.Reads.append inert
    fun named => reads_className unclosed named tags

theorem unquoted_styleText {theme : Theme} (listed : theme ∈ Theme.builtins) {classPrefix : Text}
    (unquoted : '"' ∉ classPrefix) : '"' ∉ styleText theme classPrefix := by
  rw [styleText]
  refine List.not_mem_append ?_ inert_pageRule.2
  refine stylesheet_induction listed List.not_mem_append (fun quiet => quiet.2) ?_
  intro cssClass named
  exact List.not_mem_append unquoted (List.not_mem_append named.unquoted (by decide))

theorem infix_rule (name declarations : Text) : name <:+: Theme.rule name declarations := by
  have dotted : name <:+: '.' :: name := (List.suffix_cons '.' name).isInfix
  unfold Theme.rule
  exact ((dotted.trans (List.prefix_append _ _).isInfix).trans
    (List.prefix_append _ _).isInfix).trans (List.prefix_append _ _).isInfix

theorem infix_styleText (theme : Theme) (classPrefix : Text) :
    classPrefix <:+: styleText theme classPrefix := by
  have code : classPrefix <:+: classPrefix ++ "code".toList := (List.prefix_append _ _).isInfix
  have styled : classPrefix <:+: theme.stylesheet classPrefix :=
    ((code.trans (infix_rule _ _)).trans (List.suffix_append _ _).isInfix).trans
      (List.prefix_append _ _).isInfix
  exact styled.trans (List.prefix_append _ _).isInfix

theorem bare_escape (text : Text) : '<' ∉ escape text :=
  fun member => (not_angle_of_mem_escape member).1 rfl

def pageFront (title : Text) : Text :=
  "<!DOCTYPE html>\n<html lang=\"ha\">\n<head>\n<meta charset=\"utf-8\">\n<title>".toList ++
    escape title ++ "</title>\n<style>\n".toList

def pageBack (classPrefix markup : Text) : Text :=
  "\n</head>\n<body>\n<pre class=\"".toList ++ (classPrefix ++ "code".toList) ++ "\">".toList ++
    markup ++ "</pre>\n</body>\n</html>\n".toList

theorem page_eq (theme : Theme) (classPrefix title markup : Text) :
    page theme classPrefix title markup =
      pageFront title ++ (styleText theme classPrefix ++
        ("</style>".toList ++ pageBack classPrefix markup)) := by
  have ending : "</style>\n</head>\n<body>\n<pre class=\"".toList =
      "</style>".toList ++ "\n</head>\n<body>\n<pre class=\"".toList := by decide
  have code : "code\">".toList = "code".toList ++ "\">".toList := by decide
  unfold page pageFront styleText pageRule pageBack
  rw [ending, code]
  simp only [List.append_assoc]

theorem reads_pageFront (title : Text) :
    Reading.Reads ⟨.content, []⟩ (pageFront title) ⟨.raw "style".toList, headTags⟩ := by
  have opened : Reading.Reads ⟨.content, []⟩
      "<!DOCTYPE html>\n<html lang=\"ha\">\n<head>\n<meta charset=\"utf-8\">\n<title>".toList
      ⟨.raw "title".toList, headTags.take 5⟩ := by
    intro rest
    simp only [String.reduceToList]
    rfl
  have titled := Reading.reads_raw_of_bare (headTags.take 5) "title".toList
    (bare_escape title)
  have closed : Reading.Reads ⟨.raw "title".toList, headTags.take 5⟩ "</title>\n<style>\n".toList
      ⟨.raw "style".toList, headTags⟩ := by
    intro rest
    simp only [String.reduceToList]
    rfl
  exact (opened.append titled).append closed

theorem reads_endStyle (tags : List Tag) :
    Reading.Reads ⟨.raw "style".toList, tags⟩ "</style>".toList
      ⟨.content, tags ++ [.closing "style".toList]⟩ := fun _ => rfl

/-- A class whose text holds no quote is read whole. -/
theorem reads_class {name front written : Text} {before : Reading} {tags : List Tag}
    (opened : before.Reads front ⟨.value name [] "class".toList [], tags⟩)
    (unquoted : '"' ∉ written) (bare : behind name = .content) :
    before.Reads (front ++ written ++ "\">".toList)
      ⟨.content, tags ++ [.opening name [("class".toList, unescape written)]]⟩ := by
  have value := Reading.reads_value tags name [] "class".toList [] unquoted
  have closed : Reading.Reads ⟨.value name [] "class".toList written, tags⟩ "\">".toList
      ⟨behind name, tags ++ [.opening name [("class".toList, unescape written)]]⟩ := fun _ => rfl
  rw [bare] at closed
  exact (opened.append value).append closed

theorem unquoted_escape {text : Text} (unquoted : '"' ∉ text) : '"' ∉ escape text := by
  have quiet : ∀ entity ∈ entities, '"' ∉ entity := by decide
  intro member
  obtain ⟨source, within, written⟩ := List.mem_flatMap.mp member
  unfold escapeChar at written
  split at written
  · exact quiet _ (by simp [entities]) written
  · exact quiet _ (by simp [entities]) written
  · exact quiet _ (by simp [entities]) written
  · rw [← List.mem_singleton.mp written] at within
    exact unquoted within

theorem reads_renderFragment {classPrefix : Text} (unquoted : '"' ∉ classPrefix)
    (part : Fragment) (tags : List Tag) :
    Reading.Reads ⟨.content, tags⟩ (renderFragment classPrefix part)
      ⟨.content, tags ++ spanTags classPrefix part.category⟩ := by
  have shown : ∀ tags, Reading.Reads ⟨.content, tags⟩ (escape part.text) ⟨.content, tags⟩ :=
    fun tags => Reading.reads_content tags (bare_escape part.text)
  rw [renderFragment, spanTags]
  cases named : part.category.cssClass with
  | none =>
      rw [List.append_nil]
      exact shown tags
  | some cssClass =>
      have written : '"' ∉ escape classPrefix ++ cssClass.toList :=
        List.not_mem_append (unquoted_escape unquoted) (className_cssClass named).unquoted
      have opened : Reading.Reads ⟨.content, tags⟩ "<span class=\"".toList
          ⟨.value "span".toList [] "class".toList [], tags⟩ := fun _ => rfl
      have classed := reads_class opened written (by decide)
      rw [unescape_className (isLower_of_mem_cssClass named), ← List.append_assoc] at classed
      have closed : ∀ tags, Reading.Reads ⟨.content, tags⟩ "</span>".toList
          ⟨.content, tags ++ [.closing "span".toList]⟩ := fun _ _ => rfl
      have whole := (classed.append (shown _)).append (closed _)
      rw [List.append_assoc tags] at whole
      exact whole

theorem reads_render {classPrefix : Text} (unquoted : '"' ∉ classPrefix) (parts : List Fragment)
    (tags : List Tag) :
    Reading.Reads ⟨.content, tags⟩ (render classPrefix parts)
      ⟨.content, tags ++ parts.flatMap fun part => spanTags classPrefix part.category⟩ := by
  refine Reading.Reads.append ?_ (Reading.reads_content _ (by decide))
  induction parts generalizing tags with
  | nil => exact fun _ => by rw [List.flatMap_nil, List.flatMap_nil, List.append_nil]; rfl
  | cons part more ih =>
      have first := reads_renderFragment unquoted part tags
      have later := ih (tags ++ spanTags classPrefix part.category)
      rw [List.flatMap_cons, List.flatMap_cons, ← List.append_assoc tags]
      exact first.append later

theorem bodyTags_append (tags spans : List Tag) (codeClass : Text) :
    tags ++ [.closing "head".toList] ++ [.opening "body".toList []] ++
        [.opening "pre".toList [("class".toList, codeClass)]] ++ spans ++
        [.closing "pre".toList] ++ [.closing "body".toList] ++ [.closing "html".toList] =
      tags ++ bodyTags codeClass spans := by
  simp [bodyTags]

theorem reads_pageBack {classPrefix : Text} (unquoted : '"' ∉ classPrefix)
    (parts : List Fragment) (tags : List Tag) :
    Reading.Reads ⟨.content, tags⟩ (pageBack classPrefix (render classPrefix parts))
      ⟨.content, tags ++ bodyTags (unescape (classPrefix ++ "code".toList))
        (parts.flatMap fun part => spanTags classPrefix part.category)⟩ := by
  have written : '"' ∉ classPrefix ++ "code".toList :=
    List.not_mem_append unquoted className_code.unquoted
  have opened : Reading.Reads ⟨.content, tags⟩ "\n</head>\n<body>\n<pre class=\"".toList
      ⟨.value "pre".toList [] "class".toList [],
        tags ++ [.closing "head".toList] ++ [.opening "body".toList []]⟩ := by
    intro rest
    simp only [String.reduceToList]
    rfl
  have coded := reads_class opened written (by decide)
  have closed : ∀ tags, Reading.Reads ⟨.content, tags⟩ "</pre>\n</body>\n</html>\n".toList
      ⟨.content, tags ++ [.closing "pre".toList] ++ [.closing "body".toList] ++
        [.closing "html".toList]⟩ := by
    intro tags rest
    simp only [String.reduceToList]
    rfl
  have whole := (coded.append (reads_render unquoted parts _)).append (closed _)
  rwa [bodyTags_append] at whole

/-- What a page has in its tags if no quote and no end of the stylesheet stands in its class
prefix. -/
theorem tags?_page {theme : Theme} (listed : theme ∈ Theme.builtins) {classPrefix : Text}
    (unquoted : '"' ∉ classPrefix)
    (unclosed : ∀ ending ∈ classPrefix.tails, closes "style".toList ending = false)
    (title : Text) (parts : List Fragment) :
    tags? (page theme classPrefix title (render classPrefix parts)) =
      some (headTags ++ .closing "style".toList ::
        bodyTags (unescape (classPrefix ++ "code".toList))
          (parts.flatMap fun part => spanTags classPrefix part.category)) := by
  have styled := reads_styleText listed unclosed headTags
  have back := reads_pageBack unquoted parts (headTags ++ [.closing "style".toList])
  have whole := (reads_pageFront title).append
    (styled.append ((reads_endStyle headTags).append back))
  rw [← page_eq, List.append_assoc headTags, List.singleton_append] at whole
  rw [tags?_eq_some_iff, ← List.append_nil (page _ _ _ _), whole]
  rfl

/-- A tag that neither ends a stylesheet nor begins an element of nothing but text. -/
def Calm : Tag → Prop
  | .opening name _ => behind name = .content
  | .closing name => name ≠ "style".toList
  | .declaration _ => True

theorem calm_spanTags (classPrefix : Text) (category : Category) :
    ∀ tag ∈ spanTags classPrefix category, Calm tag := by
  unfold spanTags
  split
  · simp only [List.forall_mem_cons]
    exact ⟨rfl, by simp [Calm], List.forall_mem_nil _⟩
  · exact List.forall_mem_nil _

theorem calm_bodyTags (codeClass : Text) {spans : List Tag} (calm : ∀ tag ∈ spans, Calm tag) :
    ∀ tag ∈ bodyTags codeClass spans, Calm tag := by
  refine List.forall_mem_append.mpr ⟨List.forall_mem_append.mpr ⟨?_, calm⟩, ?_⟩
  · simp only [List.forall_mem_cons]
    exact ⟨by simp [Calm], rfl, rfl, List.forall_mem_nil _⟩
  · simp [Calm]

/-- When the end tag of the stylesheet comes, a reader that has gone astray takes down a tag that
does not belong behind it. -/
theorem Reading.Strayed.exists_not_calm {tags later : List Tag} {reading : Reading} {rest : Text}
    {spot : Spot} (strayed : reading.Strayed tags)
    (read : reading.read? ("</style>".toList ++ rest) =
      some ⟨spot, tags ++ .closing "style".toList :: later⟩) : ∃ tag ∈ later, ¬ Calm tag := by
  obtain ⟨place, _⟩ := reading
  obtain ⟨found, rfl, astray⟩ := strayed
  cases place with
  | content =>
      have closed : Reading.read? ⟨.content, tags ++ found ++ [.closing "style".toList]⟩ rest =
          some ⟨spot, tags ++ .closing "style".toList :: later⟩ := read
      have grown := tags_of_read? closed
      rw [List.append_assoc, List.prefix_append_right_inj] at grown
      obtain ⟨first, others, rfl⟩ := List.exists_cons_of_ne_nil (show found ≠ [] from astray)
      have within := (List.cons_prefix_cons.mp grown).2
      exact ⟨_, within.subset (List.mem_append_right _ List.mem_cons_self), fun calm => calm rfl⟩
  | raw text =>
      obtain ⟨name, attributes, member, raw⟩ := astray
      have grown := tags_of_read? read
      rw [List.prefix_append_right_inj] at grown
      rcases List.mem_cons.mp (grown.subset member) with same | within
      · cases same
      · exact ⟨_, within, raw⟩
  | value | valueEnd => exact astray.elim
  | bracket | declaration | closing | opening | key | equals =>
      -- In none of these an angle bracket can follow.
      cases (show none = some _ from read)

theorem unclosed_of_tags? {theme : Theme} (listed : theme ∈ Theme.builtins)
    {classPrefix title markup : Text} {later : List Tag} (unquoted : '"' ∉ classPrefix)
    (read : tags? (page theme classPrefix title markup) =
      some (headTags ++ .closing "style".toList :: later)) (calm : ∀ tag ∈ later, Calm tag) :
    ∀ ending ∈ classPrefix.tails, closes "style".toList ending = false := by
  intro ending suffix
  rw [Bool.eq_false_iff]
  intro closed
  obtain ⟨front, whole⟩ := (List.mem_tails _ _).mp suffix
  obtain ⟨left, right, shape⟩ := infix_styleText theme classPrefix
  have early : ending ++ right <:+ styleText theme classPrefix := by
    refine ⟨left ++ front, ?_⟩
    rw [← shape, ← whole]
    simp only [List.append_assoc]
  rw [tags?_eq_some_iff, page_eq, reads_pageFront] at read
  obtain ⟨reading, strayed, onward⟩ := exists_strayed early (closes_append closed right)
    (unquoted_styleText listed unquoted) read
  obtain ⟨tag, member, wild⟩ := strayed.exists_not_calm onward
  exact wild (calm tag member)

theorem codeClass_of_bodyTags {codeClass otherClass : Text} {spans others : List Tag}
    (same : bodyTags codeClass spans = bodyTags otherClass others) : codeClass = otherClass := by
  have third := congrArg (fun tags : List Tag => tags[2]?) same
  simpa [bodyTags] using third

theorem flatMap_scan (source : Text) (tags : Category → List Tag) :
    ((scan source).flatMap fun token => tags token.category) =
      (fragments source).flatMap fun part => tags part.category := by
  rw [← map_toFragment_locate 0 (fragments source), List.flatMap_map]
  rfl

theorem calm_spans (classPrefix : Text) (tokens : List Token) :
    ∀ tag ∈ tokens.flatMap fun token => spanTags classPrefix token.category, Calm tag := by
  intro tag member
  obtain ⟨token, _, within⟩ := List.mem_flatMap.mp member
  exact calm_spanTags classPrefix token.category tag within

/-- A page that has the class prefix in its tags has it between quotes. -/
theorem unquoted_of_pageTags {text classPrefix : Text} {tokens : List Token}
    (read : tags? text = some (pageTags classPrefix tokens)) : '"' ∉ classPrefix := by
  have coded : .opening "pre".toList [("class".toList, classPrefix ++ "code".toList)] ∈
      pageTags classPrefix tokens := by
    simp [pageTags, bodyTags]
  have unquoted := unquoted_of_tags? read _ coded (classPrefix ++ "code".toList) List.mem_cons_self
  exact fun member => unquoted (List.mem_append_left _ member)

end Dabara.Markup

namespace Dabara.CommandLine

open Markup

/-- Whatever the source, the title and the theme, the page that is written has the tags it is meant
to have, with the class prefix itself in each class, exactly if the class prefix is harmless. -/
theorem tags?_htmlOutput_iff {theme : Theme} (listed : theme ∈ Theme.builtins)
    (settings : Settings) (input : Input) (source : Text) :
    tags? (htmlOutput settings theme input true source) =
        some (pageTags settings.classPrefix.toList (scan source)) ↔
      Harmless settings.classPrefix.toList := by
  have written : htmlOutput settings theme input true source =
      page theme settings.classPrefix.toList (pageTitle input)
        (render settings.classPrefix.toList (fragments source)) := rfl
  rw [written]
  generalize settings.classPrefix.toList = classPrefix
  constructor
  · intro read
    have unquoted := unquoted_of_pageTags read
    have calm := calm_bodyTags (classPrefix ++ "code".toList) (calm_spans classPrefix (scan source))
    have unclosed := unclosed_of_tags? listed unquoted read calm
    rw [tags?_page listed unquoted unclosed, Option.some.injEq, pageTags] at read
    have bodies := (List.cons.inj (List.append_cancel_left read)).2
    have unentitied := (unescape_codeClass_iff classPrefix).mp (codeClass_of_bodyTags bodies)
    exact ⟨unquoted, unentitied, unclosed⟩
  · intro harmless
    rw [tags?_page listed harmless.unquoted harmless.unclosed,
      (unescape_codeClass_iff classPrefix).mpr harmless.unentitied, pageTags, flatMap_scan]

theorem tags?_htmlOutput_angled :
    Theme.nord ∈ Theme.builtins ∧
      tags? (htmlOutput { Settings.usual with classPrefix := "</b>&" } Theme.nord
          ⟨some "<a>.ha", none⟩ true "1 < 2".toList) =
        some (pageTags "</b>&".toList (scan "1 < 2".toList)) := by
  have listed : Theme.nord ∈ Theme.builtins := by decide
  exact ⟨listed, (tags?_htmlOutput_iff listed { Settings.usual with classPrefix := "</b>&" }
    ⟨some "<a>.ha", none⟩ "1 < 2".toList).mpr (by decide)⟩

/-- With the class prefix `&lt;` the spans have that prefix in their class, but the `pre` does
not. -/
theorem not_tags?_htmlOutput_always :
    ¬ ∀ theme ∈ Theme.builtins, ∀ (settings : Settings) (input : Input) (source : Text),
      tags? (htmlOutput settings theme input true source) =
        some (pageTags settings.classPrefix.toList (scan source)) := by
  intro always
  have entity := always .usual (by decide) { Settings.usual with classPrefix := "&lt;" }
    ⟨none, none⟩ "1".toList
  revert entity
  decide +kernel

end Dabara.CommandLine
