import Dabara.Proofs.Entities

set_option autoImplicit false

namespace Dabara.Markup

/-- What stands between angle brackets, names in small letters. -/
inductive Tag
  | declaration (text : Text)
  | opening (name : Text) (attributes : List (Text × Text))
  | closing (name : Text)
  deriving DecidableEq

/-- Where in a page the reader is: between tags, behind an opening angle bracket, in one of the
parts of a tag, or in the text of an element that has nothing but text. -/
inductive Spot
  | content
  | bracket
  | declaration (text : Text)
  | closing (name : Text)
  | opening (name : Text)
  | key (name : Text) (attributes : List (Text × Text)) (label : Text)
  | equals (name : Text) (attributes : List (Text × Text)) (label : Text)
  | value (name : Text) (attributes : List (Text × Text)) (label part : Text)
  | valueEnd (name : Text) (attributes : List (Text × Text))
  | raw (name : Text)
  deriving DecidableEq

def endsName (c : Char) : Bool :=
  c ∈ ['>', '/', ' ', '\t', '\n', '\r', '\x0c']

/-- Whether a text begins with an end tag of a name, in small letters or capitals. -/
def closes (name : Text) : Text → Bool
  | '<' :: '/' :: rest =>
      (rest.take name.length).map Char.toLower == name &&
        Fragment.startsWith endsName (rest.drop name.length)
  | _ => false

def behind (name : Text) : Spot :=
  if name = "style".toList ∨ name = "title".toList then .raw name else .content

/-- Where the reader goes with one character in front of the rest of the page, and the tag that
ends there. -/
def Spot.next? (spot : Spot) (c : Char) (rest : Text) : Option (Spot × Option Tag) :=
  match spot with
  | .content => some (if c = '<' then .bracket else .content, none)
  | .bracket =>
      if c = '/' then some (.closing [], none)
      else if c = '!' then some (.declaration [], none)
      else if c.isAlpha then some (.opening [c.toLower], none)
      else none
  | .declaration text =>
      if c = '>' then some (.content, some (.declaration text))
      else if c.isAlpha || c = ' ' then some (.declaration (text ++ [c]), none)
      else none
  | .closing name =>
      if c = '>' then some (.content, some (.closing name))
      else if c.isAlphanum then some (.closing (name ++ [c.toLower]), none)
      else none
  | .opening name =>
      if c = '>' then some (behind name, some (.opening name []))
      else if c = ' ' then some (.key name [] [], none)
      else if c.isAlphanum then some (.opening (name ++ [c.toLower]), none)
      else none
  | .key name attributes label =>
      if c = '=' then some (.equals name attributes label, none)
      else if c.isAlphanum then some (.key name attributes (label ++ [c.toLower]), none)
      else none
  | .equals name attributes label =>
      if c = '"' then some (.value name attributes label [], none) else none
  | .value name attributes label part =>
      if c = '"' then some (.valueEnd name (attributes ++ [(label, unescape part)]), none)
      else some (.value name attributes label (part ++ [c]), none)
  | .valueEnd name attributes =>
      if c = '>' then some (behind name, some (.opening name attributes))
      else if c = ' ' then some (.key name attributes [], none)
      else none
  | .raw name => some (if closes name (c :: rest) then .bracket else .raw name, none)

structure Reading where
  spot : Spot
  tags : List Tag
  deriving DecidableEq

namespace Reading

def goOn (reading : Reading) : Spot × Option Tag → Reading
  | (spot, none) => ⟨spot, reading.tags⟩
  | (spot, some tag) => ⟨spot, reading.tags ++ [tag]⟩

def step? (reading : Reading) (c : Char) (rest : Text) : Option Reading :=
  (reading.spot.next? c rest).map reading.goOn

def read? (reading : Reading) : Text → Option Reading
  | [] => some reading
  | c :: rest =>
      match reading.step? c rest with
      | some next => next.read? rest
      | none => none

end Reading

/-- The tags of a page, if it is well formed and ends between tags. -/
def tags? (page : Text) : Option (List Tag) :=
  match Reading.read? ⟨.content, []⟩ page with
  | some ⟨.content, tags⟩ => some tags
  | _ => none

theorem closes_iff {name text : Text} :
    closes name text = true ↔
      ∃ spelled c rest, text = '<' :: '/' :: (spelled ++ c :: rest) ∧
        spelled.map Char.toLower = name ∧ endsName c = true := by
  constructor
  · intro closed
    unfold closes at closed
    split at closed
    · next rest =>
        obtain ⟨named, ended⟩ := Bool.and_eq_true_iff.mp closed
        cases behindName : rest.drop name.length with
        | nil =>
            rw [behindName] at ended
            cases ended
        | cons c more =>
            rw [behindName] at ended
            refine ⟨rest.take name.length, c, more, ?_, beq_iff_eq.mp named, ended⟩
            rw [← behindName, List.take_append_drop]
    · cases closed
  · rintro ⟨spelled, c, rest, rfl, named, ended⟩
    have long : name.length = spelled.length := by rw [← named, List.length_map]
    rw [closes, long, List.take_left, List.drop_left, named, beq_self_eq_true, Bool.true_and]
    exact ended

/-- An end tag stays one whatever stands behind it. -/
theorem closes_append {name text : Text} (closed : closes name text = true) (rest : Text) :
    closes name (text ++ rest) = true := by
  obtain ⟨spelled, c, more, rfl, named, ended⟩ := closes_iff.mp closed
  exact closes_iff.mpr ⟨spelled, c, more ++ rest, by simp, named, ended⟩

theorem closes_cons {c : Char} (other : c ≠ '<') (name rest : Text) :
    closes name (c :: rest) = false := by
  rw [Bool.eq_false_iff]
  intro closed
  obtain ⟨spelled, ending, more, shape, _, _⟩ := closes_iff.mp closed
  exact other (List.cons.inj shape).1

/-- A character of a text with its entities undone stands in the text or for an entity. -/
theorem mem_of_mem_unescape {text : Text} {c : Char} (member : c ∈ unescape text) :
    c ∈ text ∨ c ∈ ['&', '<', '>'] := by
  fun_induction unescape text with
  | case1 => cases member
  | case2 rest ih | case3 rest ih | case4 rest ih =>
      rcases List.mem_cons.mp member with rfl | later
      · exact .inr (by decide)
      · exact (ih later).imp_left (by simp +contextual)
  | case5 first rest _ _ _ ih =>
      rcases List.mem_cons.mp member with rfl | later
      · exact .inl List.mem_cons_self
      · exact (ih later).imp_left (List.mem_cons_of_mem _)

namespace Reading

/-- Reading a text leads from one place to another, whatever stands behind the text. -/
def Reads (before : Reading) (text : Text) (after : Reading) : Prop :=
  ∀ rest, before.read? (text ++ rest) = after.read? rest

section Reads

variable {first second third : Reading}

theorem Reads.append {front back : Text} (left : first.Reads front second)
    (right : second.Reads back third) : first.Reads (front ++ back) third := by
  intro rest
  rw [List.append_assoc, left, right]

end Reads

theorem read?_cons_of_step? {reading next : Reading} {c : Char} {rest : Text}
    (stepped : reading.step? c rest = some next) :
    reading.read? (c :: rest) = next.read? rest := by
  rw [read?, stepped]

theorem reads_content (tags : List Tag) {text : Text} (bare : '<' ∉ text) :
    Reads ⟨.content, tags⟩ text ⟨.content, tags⟩ := by
  intro rest
  induction text with
  | nil => rfl
  | cons c more ih =>
      obtain ⟨now, later⟩ := List.ne_and_not_mem_of_not_mem_cons bare
      have stepped : step? ⟨.content, tags⟩ c (more ++ rest) = some ⟨.content, tags⟩ := by
        rw [step?, Spot.next?, if_neg (Ne.symm now)]
        rfl
      rw [List.cons_append, read?_cons_of_step? stepped, ih later]

theorem reads_value (tags : List Tag) (name : Text) (attributes : List (Text × Text))
    (label part : Text) {text : Text} (unquoted : '"' ∉ text) :
    Reads ⟨.value name attributes label part, tags⟩ text
      ⟨.value name attributes label (part ++ text), tags⟩ := by
  intro rest
  induction text generalizing part with
  | nil => rw [List.append_nil, List.nil_append]
  | cons c more ih =>
      obtain ⟨now, later⟩ := List.ne_and_not_mem_of_not_mem_cons unquoted
      have stepped : step? ⟨.value name attributes label part, tags⟩ c (more ++ rest) =
          some ⟨.value name attributes label (part ++ [c]), tags⟩ := by
        rw [step?, Spot.next?, if_neg (Ne.symm now)]
        rfl
      rw [List.cons_append, read?_cons_of_step? stepped, ih (part ++ [c]) later,
        List.append_assoc, List.singleton_append]

/-- The text of an element goes on as long as its end tag does not begin. -/
theorem reads_raw (tags : List Tag) {name text : Text}
    (unclosed : ∀ rest ending, ending <:+ text → ending ≠ [] →
      closes name (ending ++ rest) = false) :
    Reads ⟨.raw name, tags⟩ text ⟨.raw name, tags⟩ := by
  intro rest
  induction text with
  | nil => rfl
  | cons c more ih =>
      have now : closes name (c :: (more ++ rest)) = false :=
        unclosed rest (c :: more) List.suffix_rfl (List.cons_ne_nil c more)
      have stepped : step? ⟨.raw name, tags⟩ c (more ++ rest) = some ⟨.raw name, tags⟩ := by
        rw [step?, Spot.next?, now]
        rfl
      rw [List.cons_append, read?_cons_of_step? stepped, ih]
      intro other ending suffix nonempty
      exact unclosed other ending (suffix.trans (List.suffix_cons c more)) nonempty

theorem reads_raw_of_bare (tags : List Tag) (name : Text) {text : Text}
    (bare : '<' ∉ text) : Reads ⟨.raw name, tags⟩ text ⟨.raw name, tags⟩ := by
  apply reads_raw
  intro rest ending suffix nonempty
  obtain ⟨c, more, rfl⟩ := List.exists_cons_of_ne_nil nonempty
  apply closes_cons
  rintro rfl
  exact bare (suffix.subset List.mem_cons_self)

theorem tags_goOn (reading : Reading) (move : Spot × Option Tag) :
    (reading.goOn move).tags = reading.tags ++ move.2.toList := by
  obtain ⟨spot, _ | tag⟩ := move
  · exact (List.append_nil _).symm
  · rfl

theorem spot_goOn (reading : Reading) (move : Spot × Option Tag) :
    (reading.goOn move).spot = move.1 := by
  obtain ⟨spot, _ | tag⟩ := move <;> rfl

/-- What each step keeps, as long as the characters are of some kind, is kept along a text. -/
theorem exists_of_read? {holds : Reading → Prop} {kind : Char → Prop}
    (kept : ∀ {reading : Reading} {c rest move}, kind c → holds reading →
      reading.spot.next? c rest = some move → holds (reading.goOn move))
    {text : Text} (every : ∀ c ∈ text, kind c) {reading final : Reading} (start : holds reading)
    {rest : Text} (read : reading.read? (text ++ rest) = some final) :
    ∃ between, holds between ∧ Reading.read? between rest = some final := by
  induction text generalizing reading with
  | nil => exact ⟨reading, start, read⟩
  | cons c more ih =>
      obtain ⟨now, later⟩ := List.forall_mem_cons.mp every
      rw [List.cons_append, read?, step?] at read
      cases moved : reading.spot.next? c (more ++ rest) with
      | none =>
          rw [moved] at read
          cases read
      | some move =>
          rw [moved] at read
          exact ih later (kept now start moved) read

/-- What every step keeps is kept to the end of a page. -/
theorem holds_of_read? {holds : Reading → Prop}
    (kept : ∀ {reading : Reading} {c rest move}, holds reading →
      reading.spot.next? c rest = some move → holds (reading.goOn move))
    {text : Text} {reading final : Reading} (start : holds reading)
    (read : reading.read? text = some final) : holds final := by
  rw [← List.append_nil text] at read
  obtain ⟨between, held, ended⟩ :=
    @exists_of_read? holds (fun _ => True) (fun _ => kept) text (fun _ _ => trivial)
      reading final start [] read
  rwa [← Option.some.inj ended]

/-- A tag that has been read stays. -/
theorem tags_of_read? {reading final : Reading} {text : Text}
    (read : reading.read? text = some final) : reading.tags <+: final.tags := by
  apply @holds_of_read? (reading.tags <+: ·.tags) _ text reading final List.prefix_rfl read
  intro now _ _ move kept _
  rw [tags_goOn]
  exact kept.trans (List.prefix_append _ _)

end Reading

def Tag.values : Tag → List Text
  | .opening _ attributes => attributes.map Prod.snd
  | _ => []

def Spot.values : Spot → List Text
  | .key _ attributes _ | .equals _ attributes _ | .valueEnd _ attributes =>
      attributes.map Prod.snd
  | .value _ attributes _ part => part :: attributes.map Prod.snd
  | _ => []

theorem values_behind (name : Text) : (behind name).values = [] := by
  unfold behind
  split <;> rfl

/-- A value ends at the first quote behind its beginning, so none has a quote in it. -/
theorem Spot.unquoted_of_next? {spot : Spot} {c : Char} {rest : Text} {move : Spot × Option Tag}
    (unquoted : ∀ value ∈ spot.values, '"' ∉ value) (moved : spot.next? c rest = some move) :
    (∀ value ∈ move.1.values, '"' ∉ value) ∧
      ∀ tag ∈ move.2, ∀ value ∈ tag.values, '"' ∉ value := by
  cases spot with
  | value name attributes label part =>
      have bare : '"' ∉ part := unquoted part List.mem_cons_self
      simp only [Spot.next?] at moved
      split_ifs at moved with quote
      · -- The value has its end, and undoing its entities brings no quote in.
        have undone : '"' ∉ unescape part :=
          fun member => (mem_of_mem_unescape member).elim bare (by decide)
        obtain rfl := Option.some.inj moved
        grind [Spot.values]
      · obtain rfl := Option.some.inj moved
        grind [Spot.values]
  | _ =>
      simp only [Spot.next?] at moved
      grind [Spot.values, Tag.values, values_behind]

theorem tags?_eq_some_iff {page : Text} {tags : List Tag} :
    tags? page = some tags ↔ Reading.read? ⟨.content, []⟩ page = some ⟨.content, tags⟩ := by
  unfold tags?
  split <;> simp_all

/-- No value that has been read holds a quote. -/
structure Reading.Unquoted (reading : Reading) : Prop where
  spot : ∀ value ∈ reading.spot.values, '"' ∉ value
  tags : ∀ tag ∈ reading.tags, ∀ value ∈ tag.values, '"' ∉ value

theorem Reading.Unquoted.goOn {reading : Reading} {c : Char} {rest : Text}
    {move : Spot × Option Tag} (unquoted : reading.Unquoted)
    (moved : reading.spot.next? c rest = some move) : (reading.goOn move).Unquoted := by
  obtain ⟨spot, tag⟩ := Spot.unquoted_of_next? unquoted.spot moved
  rw [← spot_goOn reading] at spot
  refine ⟨spot, ?_⟩
  intro other member
  rw [tags_goOn, List.mem_append, Option.mem_toList] at member
  exact member.elim (unquoted.tags other) (tag other)

theorem unquoted_of_tags? {page : Text} {tags : List Tag} (read : tags? page = some tags) :
    ∀ tag ∈ tags, ∀ value ∈ tag.values, '"' ∉ value := by
  have start : Reading.Unquoted ⟨.content, []⟩ := ⟨by simp [Spot.values], by simp⟩
  exact (Reading.holds_of_read? Reading.Unquoted.goOn start (tags?_eq_some_iff.mp read)).tags

/-- The reader has left the text of an element, and the tags that it read later betray it: between
tags there is one, and in the text of another element there is the opening tag of that. -/
def Astray (later : List Tag) : Spot → Prop
  | .content => later ≠ []
  | .raw _ => ∃ name attributes, .opening name attributes ∈ later ∧ behind name ≠ .content
  | .value .. | .valueEnd .. => False
  | _ => True

theorem astray_behind (later : List Tag) (name : Text) (attributes : List (Text × Text)) :
    Astray (later ++ [.opening name attributes]) (behind name) := by
  by_cases text : behind name = .content
  · rw [text]
    exact List.concat_ne_nil _ _
  · have raw : behind name = .raw name := by
      unfold behind at text ⊢
      exact if_pos (not_imp_comm.mp (fun other => if_neg other) text)
    rw [raw]
    exact ⟨name, attributes, List.mem_append_right _ List.mem_cons_self, text⟩

/-- Without a quote the reader stays astray. -/
theorem Astray.next? {later : List Tag} {spot : Spot} {c : Char} {rest : Text}
    {move : Spot × Option Tag} (astray : Astray later spot) (unquoted : c ≠ '"')
    (moved : spot.next? c rest = some move) : Astray (later ++ move.2.toList) move.1 := by
  cases spot with
  | content | raw =>
      obtain rfl := Option.some.inj moved
      rw [Option.toList_none, List.append_nil]
      split
      · trivial
      · exact astray
  | bracket | declaration | closing | key =>
      simp only [Spot.next?] at moved
      split_ifs at moved <;> obtain rfl := Option.some.inj moved <;> simp [Astray]
  | opening name =>
      simp only [Spot.next?] at moved
      split_ifs at moved <;> obtain rfl := Option.some.inj moved
      · exact astray_behind later name []
      · trivial
      · trivial
  | equals => cases (if_neg unquoted).symm.trans moved
  | value | valueEnd => exact astray.elim

/-- The reader has gone astray since certain tags. -/
def Reading.Strayed (tags : List Tag) (reading : Reading) : Prop :=
  ∃ later, reading.tags = tags ++ later ∧ Astray later reading.spot

theorem Reading.Strayed.goOn {tags : List Tag} {reading : Reading} {c : Char} {rest : Text}
    {move : Spot × Option Tag} (unquoted : c ≠ '"') (strayed : reading.Strayed tags)
    (moved : reading.spot.next? c rest = some move) : (reading.goOn move).Strayed tags := by
  obtain ⟨later, whole, astray⟩ := strayed
  refine ⟨later ++ move.2.toList, ?_, ?_⟩
  · rw [tags_goOn, whole, List.append_assoc]
  · rw [spot_goOn]
    exact astray.next? unquoted moved

/-- Where an end tag of an element stands in what was to be its text, the reader goes astray. -/
theorem exists_strayed {name text ending rest : Text} {tags : List Tag} {final : Reading}
    (early : ending <:+ text) (closed : closes name ending = true)
    (unquoted : '"' ∉ text)
    (read : Reading.read? ⟨.raw name, tags⟩ (text ++ rest) = some final) :
    ∃ reading : Reading, reading.Strayed tags ∧ reading.read? rest = some final := by
  induction text with
  | nil =>
      rw [List.suffix_nil.mp early] at closed
      cases closed
  | cons c more ih =>
      have later := (List.ne_and_not_mem_of_not_mem_cons unquoted).2
      rw [List.cons_append, Reading.read?, Reading.step?, Spot.next?] at read
      by_cases now : closes name (c :: (more ++ rest)) = true
      · rw [now] at read
        have start : Reading.Strayed tags ⟨.bracket, tags⟩ :=
          ⟨[], (List.append_nil tags).symm, trivial⟩
        have every : ∀ c ∈ more, c ≠ '"' := List.forall_mem_ne'.mpr later
        exact Reading.exists_of_read? Reading.Strayed.goOn every start read
      · rcases List.suffix_cons_iff.mp early with rfl | further
        · exact absurd (closes_append closed rest) now
        · rw [Bool.eq_false_iff.mpr now] at read
          exact ih further later read

end Dabara.Markup
