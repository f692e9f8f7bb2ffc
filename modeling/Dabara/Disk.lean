import Dabara.Text.Bytes

set_option autoImplicit false

namespace Dabara

/-- What the system says, and the number under which it knows this, where it does not let a file be
read or made: that the permission is missing, that the medium takes no writing, and so on. -/
structure Denial where
  reason : String
  code : Nat
  deriving DecidableEq

inductive Failure
  | denied (denial : Denial)
  | notFound
  | notDirectory
  | isDirectory
  | nameTooLong
  | zeroInName
  | undecodableStream
  | undecodableText
  | noPath
  deriving DecidableEq

def Failure.message : Failure → String
  | .denied denial => denial.reason ++ " (os error " ++ toString denial.code ++ ")"
  | .notFound => "No such file or directory (os error 2)"
  | .notDirectory => "Not a directory (os error 20)"
  | .isDirectory => "Is a directory (os error 21)"
  | .nameTooLong => "File name too long (os error 36)"
  | .zeroInName => "file name contained an unexpected NUL byte"
  | .undecodableStream => "stream contained invalid UTF-8"
  | .undecodableText => "stream did not contain valid UTF-8"
  | .noPath => "No file path"

def encodeText (text : Text) : ByteArray :=
  (String.ofList text).toUTF8

/-- The text of some bytes, if they are well formed. -/
def decodeText (bytes : ByteArray) : Option Text :=
  (String.fromUTF8? bytes).map String.toList

inductive Node
  | file (bytes : ByteArray)
  | directory

/-- Names that lead to a node, from the working directory down. A leading `/` stands for the root,
leading `..` for directories above the working directory. -/
abbrev Location := List Text

namespace Location

/-- The steps of a path: what stands between its slashes. -/
def steps : Text → List Text
  | [] => [[]]
  | c :: rest =>
      if c = '/' then [] :: steps rest
      else
        match steps rest with
        | [] => [[c]]
        | first :: others => (c :: first) :: others

def origin : Text → Location
  | '/' :: _ => [['/']]
  | _ => []

/-- The root, the working directory and the directories above it, which always exist. -/
def isFixed (location : Location) : Bool :=
  location == [['/']] || location.all (· == "..".toList)

def enter (location : Location) (step : Text) : Location :=
  if step = [] ∨ step = ".".toList then location
  else if step = "..".toList then
    if location = [['/']] then location
    else if location.isFixed then location ++ [step]
    else location.dropLast
  else location ++ [step]

/-- The last name of a path, if it has one: empty steps and single dots are passed over, and a path
that ends by going up has none. -/
def fileName? (path : Text) : Option Text :=
  match ((steps path).filter fun step => step ≠ [] ∧ step ≠ ".".toList).getLast? with
  | some step => if step = "..".toList then none else some step
  | none => none

/-- What follows the last dot of a file name that does not merely begin with it. -/
def extension? (path : Text) : Option Text :=
  match fileName? path with
  | some name =>
      match name.reverse.dropWhile (· ≠ '.') with
      | [] => none
      | [_] => none
      | _ => some (name.reverse.takeWhile (· ≠ '.')).reverse
  | none => none

end Location

/-- What the system refuses, by path, whatever stands there. -/
structure Denials where
  reading : String → Option Denial
  writing : String → Option Denial

def Denials.none : Denials :=
  ⟨fun _ => Option.none, fun _ => Option.none⟩

/-- The files and directories that exist, by location, and what may not be done with them.
Directories on the way to a node need not be listed. -/
structure Disk where
  nodes : List (Location × Node)
  denials : Denials

namespace Disk

def empty : Disk :=
  ⟨[], .none⟩

def node? (disk : Disk) (location : Location) : Option Node :=
  if location.isFixed then some .directory
  else
    match disk.nodes.lookup location with
    | some node => some node
    | none =>
        if disk.nodes.any fun entry => location.isPrefixOf entry.1 then some .directory else none

def maxNameBytes : Nat :=
  255

def maxPathBytes : Nat :=
  4095

/-- Follows steps from a location; every location that a step leaves has to be a directory. -/
def walk (disk : Disk) : Location → List Text → Except Failure Location
  | location, [] => .ok location
  | location, step :: rest =>
      match disk.node? location with
      | none => .error .notFound
      | some (.file _) => .error .notDirectory
      | some .directory =>
          if maxNameBytes < byteLength step then .error .nameTooLong
          else disk.walk (location.enter step) rest

/-- Whether a path can be looked up at all. -/
def checkPath (path : String) : Except Failure Unit :=
  if path.toList.contains '\x00' then .error .zeroInName
  else if path = "" then .error .notFound
  else if maxPathBytes < path.utf8ByteSize then .error .nameTooLong
  else .ok ()

def locate (disk : Disk) (path : String) : Except Failure Location :=
  match checkPath path with
  | .error failure => .error failure
  | .ok () => disk.walk (Location.origin path.toList) (Location.steps path.toList)

/-- The location of a file to be written. A path that ends with a slash can only name a
directory, even if nothing is there yet. -/
def locateForWriting (disk : Disk) (path : String) : Except Failure Location :=
  match checkPath path with
  | .error failure => .error failure
  | .ok () =>
      let steps := Location.steps path.toList
      let named := (steps.reverse.dropWhile (· = [])).reverse
      if steps.length = named.length then disk.walk (Location.origin path.toList) steps
      else
        match disk.walk (Location.origin path.toList) named.dropLast with
        | .error failure => .error failure
        | .ok location =>
            match disk.node? location with
            | none => .error .notFound
            | some (.file _) => .error .notDirectory
            | some .directory => .error .isDirectory

def put (disk : Disk) (location : Location) (node : Node) : Disk :=
  { disk with nodes := (location, node) :: disk.nodes.filter fun entry => entry.1 ≠ location }

/-- A disk with a node at the end of a path, whatever is on the way. -/
def add (disk : Disk) (path : String) (node : Node) : Disk :=
  disk.put ((Location.steps path.toList).foldl Location.enter (Location.origin path.toList)) node

/-- The bytes of the file that stands at a path, whether or not it may be read. -/
def content (disk : Disk) (path : String) : Except Failure ByteArray :=
  match disk.locate path with
  | .error failure => .error failure
  | .ok location =>
      match disk.node? location with
      | none => .error .notFound
      | some .directory => .error .isDirectory
      | some (.file bytes) => .ok bytes

def read (disk : Disk) (path : String) : Except Failure ByteArray :=
  match disk.denials.reading path with
  | some denial => .error (.denied denial)
  | none => disk.content path

/-- Makes the file at a path hold the given bytes. -/
def write (disk : Disk) (path : String) (bytes : ByteArray) : Except Failure Disk :=
  match disk.denials.writing path with
  | some denial => .error (.denied denial)
  | none =>
      match disk.locateForWriting path with
      | .error failure => .error failure
      | .ok location =>
          match disk.node? location with
          | some .directory => .error .isDirectory
          | _ => .ok (disk.put location (.file bytes))

def present (disk : Disk) (path : String) : Bool :=
  match disk.locate path with
  | .error _ => false
  | .ok location => (disk.node? location).isSome

def readText (disk : Disk) (path : String) : Except Failure Text :=
  match disk.read path with
  | .error failure => .error failure
  | .ok bytes =>
      match decodeText bytes with
      | some text => .ok text
      | none => .error .undecodableText

end Disk

theorem fromUTF8?_toUTF8 (text : String) : String.fromUTF8? text.toUTF8 = some text := by
  unfold String.fromUTF8? String.toUTF8
  rw [dif_pos text.isValidUTF8]
  rfl

theorem decodeText_encodeText (text : Text) : decodeText (encodeText text) = some text := by
  rw [decodeText, encodeText, fromUTF8?_toUTF8, Option.map_some, String.toList_ofList]

end Dabara
