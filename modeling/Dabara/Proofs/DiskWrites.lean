import Dabara.Disk

set_option autoImplicit false

namespace Dabara

theorem fromUTF8?_eq_some {bytes : ByteArray} {text : String}
    (decoded : String.fromUTF8? bytes = some text) : text.toUTF8 = bytes := by
  unfold String.fromUTF8? at decoded
  split at decoded
  · obtain rfl := Option.some.inj decoded
    rfl
  · cases decoded

/-- Bytes that can be read as a text are the bytes of that text and of no other. -/
theorem decodeText_eq_some_iff (bytes : ByteArray) (text : Text) :
    decodeText bytes = some text ↔ bytes = encodeText text := by
  constructor
  · intro decoded
    obtain ⟨whole, found, rfl⟩ := Option.map_eq_some_iff.mp decoded
    rw [encodeText, String.ofList_toList, fromUTF8?_eq_some found]
  · intro same
    rw [same, decodeText_encodeText]

namespace Location

theorem origin_cases (path : Text) : origin path = [] ∨ origin path = [['/']] := by
  unfold origin
  split
  · exact Or.inr rfl
  · exact Or.inl rfl

/-- A step leads nowhere, one name down, or back to what is above. -/
theorem enter_cases (location : Location) (step : Text) :
    location.enter step = location ∨ location.enter step = location ++ [step] ∨
      location.enter step = location.dropLast := by
  unfold enter
  repeat' split
  · exact Or.inl rfl
  · exact Or.inl rfl
  · exact Or.inr (Or.inl rfl)
  · exact Or.inr (Or.inr rfl)
  · exact Or.inr (Or.inl rfl)

end Location

namespace Disk

variable {disk : Disk} {location other : Location}

/-- A walk goes on only from a directory, with a name that is short enough. -/
theorem walk_cons_eq_ok_iff (start : Location) (step : Text) (rest : List Text) :
    disk.walk start (step :: rest) = .ok location ↔
      disk.node? start = some .directory ∧ byteLength step ≤ maxNameBytes ∧
        disk.walk (start.enter step) rest = .ok location := by
  rw [walk]
  cases disk.node? start with
  | none => simp
  | some node =>
      cases node with
      | file bytes => simp
      | directory =>
          by_cases long : maxNameBytes < byteLength step
          · simp [long, Nat.not_le_of_lt long]
          · simp [long, Nat.le_of_not_lt long]

/-- Nothing but directories is above a location. -/
def Reachable (disk : Disk) (location : Location) : Prop :=
  ∀ above, above <+: location → above ≠ location → disk.node? above = some .directory

theorem reachable_origin (disk : Disk) (path : Text) : disk.Reachable (Location.origin path) := by
  intro above upper proper
  have fixed : above = [] := by
    rcases Location.origin_cases path with same | same
    · rw [same] at upper
      exact List.prefix_nil.mp upper
    · rw [same, ← List.nil_append [['/']], List.prefix_concat_iff] at upper
      rw [same] at proper
      exact List.prefix_nil.mp (upper.resolve_left proper)
  rw [fixed]
  rfl

theorem Reachable.enter (reachable : disk.Reachable location)
    (directory : disk.node? location = some .directory) (step : Text) :
    disk.Reachable (location.enter step) := by
  intro above upper proper
  rcases location.enter_cases step with same | down | back
  · rw [same] at upper proper
    exact reachable above upper proper
  · rw [down] at upper proper
    by_cases last : above = location
    · rw [last]
      exact directory
    · exact reachable above ((List.prefix_concat_iff.mp upper).resolve_left proper) last
  · rw [back] at upper proper
    refine reachable above (upper.trans (List.dropLast_prefix location)) ?_
    intro same
    have short := upper.length_le
    rw [same, List.length_dropLast] at short
    have empty : location = [] := List.eq_nil_of_length_eq_zero (by omega)
    exact proper (by rw [same, empty, List.dropLast_nil])

/-- What a walk comes to has only directories above it. -/
theorem Reachable.walk {start : Location} (reachable : disk.Reachable start) {steps : List Text}
    (walked : disk.walk start steps = .ok location) : disk.Reachable location := by
  induction steps generalizing start with
  | nil =>
      cases walked
      exact reachable
  | cons step rest ih =>
      obtain ⟨directory, _, later⟩ := (walk_cons_eq_ok_iff start step rest).mp walked
      exact ih (reachable.enter directory step) later

theorem lookup_filter_of_ne (nodes : List (Location × Node)) (different : other ≠ location) :
    (nodes.filter fun entry => entry.1 ≠ location).lookup other = nodes.lookup other := by
  induction nodes with
  | nil => rfl
  | cons entry rest ih =>
      obtain ⟨place, node⟩ := entry
      by_cases same : place = location
      · have past : (other == place) = false := by simpa [same] using different
        rw [List.filter_cons_of_neg (by simpa using same), ih, List.lookup_cons, past]
      · rw [List.filter_cons_of_pos (by simpa using same), List.lookup_cons, List.lookup_cons, ih]

theorem lookup_put_of_ne (node : Node) (different : other ≠ location) :
    (disk.put location node).nodes.lookup other = disk.nodes.lookup other := by
  have past : (other == location) = false := by simpa using different
  rw [put, List.lookup_cons, past]
  exact lookup_filter_of_ne disk.nodes different

theorem any_above_put_of_not (node : Node) (apart : ¬ other <+: location) :
    ((disk.put location node).nodes.any fun entry => other.isPrefixOf entry.1) =
      disk.nodes.any fun entry => other.isPrefixOf entry.1 := by
  have past : other.isPrefixOf location = false :=
    Bool.eq_false_iff.mpr (mt List.isPrefixOf_iff_prefix.mp apart)
  rw [put, List.any_cons, past, Bool.false_or, List.any_filter]
  congr 1
  funext entry
  by_cases same : entry.1 = location
  · simp [same, past]
  · simp [same]

/-- What stands at other locations stays when something is put where only directories are above. -/
theorem node?_put_of_ne (node : Node) (reachable : disk.Reachable location)
    (different : other ≠ location) :
    (disk.put location node).node? other = disk.node? other := by
  by_cases upper : other <+: location
  · -- A directory above, which the disk lists or not, stays one.
    have directory := reachable other upper different
    have seen : ((disk.put location node).nodes.any fun entry => other.isPrefixOf entry.1) =
        true := by
      rw [put, List.any_cons, List.isPrefixOf_iff_prefix.mpr upper, Bool.true_or]
    rw [directory]
    unfold node? at directory ⊢
    rw [lookup_put_of_ne node different, seen]
    cases found : disk.nodes.lookup other with
    | some listed =>
        rw [found] at directory
        exact directory
    | none => simp
  · unfold node?
    rw [lookup_put_of_ne node different, any_above_put_of_not node upper]

theorem node?_put_self (node : Node) (named : location.isFixed = false) :
    (disk.put location node).node? location = some node := by
  simp [node?, named, put]

/-- Every walk still comes to where it came to before something was put where no directory was. -/
theorem walk_put {start target : Location} {steps : List Text} (node : Node)
    (reachable : disk.Reachable location) (free : disk.node? location ≠ some .directory)
    (walked : disk.walk start steps = .ok target) :
    (disk.put location node).walk start steps = .ok target := by
  induction steps generalizing start with
  | nil => exact walked
  | cons step rest ih =>
      rw [walk_cons_eq_ok_iff] at walked ⊢
      obtain ⟨directory, short, later⟩ := walked
      have different : start ≠ location := by
        intro same
        rw [same] at directory
        exact free directory
      refine ⟨?_, short, ih later⟩
      rw [node?_put_of_ne node reachable different, directory]

/-- Where a file may be written is where the path leads to. -/
theorem locate_of_locateForWriting {path : String}
    (found : disk.locateForWriting path = .ok location) : disk.locate path = .ok location := by
  unfold locateForWriting at found
  unfold locate
  cases checked : checkPath path with
  | error failure =>
      rw [checked] at found
      cases found
  | ok =>
      rw [checked] at found
      dsimp only at found ⊢
      split at found
      · exact found
      · -- A path that ends with a slash names no file.
        repeat' split at found
        all_goals cases found

theorem reachable_of_locate {path : String} (found : disk.locate path = .ok location) :
    disk.Reachable location := by
  unfold locate at found
  split at found
  · cases found
  · exact (disk.reachable_origin path.toList).walk found

theorem locate_put {path : String} {target : Location} (node : Node)
    (reachable : disk.Reachable location) (free : disk.node? location ≠ some .directory)
    (found : disk.locate path = .ok target) :
    (disk.put location node).locate path = .ok target := by
  unfold locate at found ⊢
  split at found
  · cases found
  · exact walk_put node reachable free found

/-- Where a walk comes to does not depend on what may be done there. -/
theorem walk_denials (disk : Disk) (denials : Denials) (start : Location) (steps : List Text) :
    { disk with denials }.walk start steps = disk.walk start steps := by
  induction steps generalizing start with
  | nil => rfl
  | cons step rest ih =>
      simp only [walk, ih]
      rfl

theorem content_denials (disk : Disk) (denials : Denials) (path : String) :
    { disk with denials }.content path = disk.content path := by
  unfold content locate
  simp only [walk_denials]
  rfl

/-- A text is what a path stands for: that of its file, or none at all where nothing is. -/
def Holds (disk : Disk) (path : String) (text : Text) : Prop :=
  disk.content path = .ok (encodeText text) ∨ disk.content path = .error .notFound ∧ text = []

theorem Holds.under {path : String} {text : Text} (holds : disk.Holds path text)
    (denials : Denials) : Holds { disk with denials } path text := by
  unfold Holds at holds ⊢
  rwa [content_denials]

/-- A file can be made, or replaced, at the location to which a path leads, and the system lets it
happen. -/
structure Creates (disk : Disk) (path : String) (location : Location) : Prop where
  allowed : disk.denials.writing path = none
  found : disk.locateForWriting path = .ok location
  free : disk.node? location ≠ some .directory

theorem write_of_creates {path : String} (creates : disk.Creates path location)
    (bytes : ByteArray) : disk.write path bytes = .ok (disk.put location (.file bytes)) := by
  rw [write, creates.allowed, creates.found]
  dsimp only
  split
  · next directory => exact absurd directory creates.free
  · rfl

/-- Where no file can be made, writing fails whatever is to be written. -/
theorem exists_write_eq_error {path : String} (refused : ∀ location, ¬ disk.Creates path location)
    (bytes : ByteArray) : ∃ failure, disk.write path bytes = .error failure := by
  unfold write
  cases allowed : disk.denials.writing path with
  | some denial => exact ⟨.denied denial, rfl⟩
  | none =>
      cases found : disk.locateForWriting path with
      | error failure => exact ⟨failure, rfl⟩
      | ok location =>
          dsimp only
          split
          · exact ⟨.isDirectory, rfl⟩
          · next free => exact absurd ⟨allowed, found, free⟩ (refused location)

/-- What writing changes: the path stands for what was written, and nothing else is different. -/
structure Wrote (disk written : Disk) (path : String) (bytes : ByteArray)
    (location : Location) : Prop where
  content : written.content path = .ok bytes
  node : written.node? location = some (.file bytes)
  elsewhere : ∀ other, other ≠ location → written.node? other = disk.node? other

theorem wrote_put {path : String} (creates : disk.Creates path location) (bytes : ByteArray) :
    disk.Wrote (disk.put location (.file bytes)) path bytes location := by
  obtain ⟨_, found, free⟩ := creates
  have leads := locate_of_locateForWriting found
  have reachable := reachable_of_locate leads
  have named : location.isFixed = false := by
    cases fixed : location.isFixed with
    | false => rfl
    | true => exact absurd (by rw [node?, fixed]; rfl) free
  have file : (disk.put location (.file bytes)).node? location = some (.file bytes) :=
    node?_put_self (.file bytes) named
  constructor
  case content =>
    rw [content, locate_put (.file bytes) reachable free leads]
    dsimp only
    rw [file]
  case node => exact file
  case elsewhere => exact fun other different => node?_put_of_ne _ reachable different

end Disk

end Dabara
