/-!
# Files

A table of files and directories under a working directory, in which programs
read and write.  A path is a text whose parts are divided by slashes; it leads
from the working directory, or from the root if it starts with a slash, through
directories to its last part.

## Main Definitions

* `FileError` — why a file cannot be read or written.
* `Place` — where something can stand: the names on the way to it.
* `FileTable` — the files and directories, each at its place.
* `FileTable.read`, `FileTable.write` — read and write a file.
* `FileTable.place` — puts a file or a directory at a path, with all directories above it.
-/

namespace Sequencer

/-- Why a file cannot be read or written. -/
inductive FileError where
  | notFound
  | notADirectory
  | isADirectory
  | nameTooLong
  | notText
  /-- The path holds a character that no path can hold. -/
  | zeroByte
  /-- Any other reason that the operating system gives. -/
  | other (words : String) (code : Nat)
  deriving DecidableEq, Repr

namespace FileError

/-- The plain words for a file error. -/
def words : FileError → String
  | notFound => "No such file or directory"
  | notADirectory => "Not a directory"
  | isADirectory => "Is a directory"
  | nameTooLong => "File name too long"
  | notText => "stream did not contain valid UTF-8"
  | zeroByte => "file name contained an unexpected NUL byte"
  | other words _ => words

/-- The number that the operating system gives to a file error. -/
def code? : FileError → Option Nat
  | notFound => some 2
  | notADirectory => some 20
  | isADirectory => some 21
  | nameTooLong => some 36
  | notText => none
  | zeroByte => none
  | other _ code => some code

/-- The message for a file error. -/
def message (e : FileError) : String :=
  match e.code? with
  | some code => e.words ++ " (os error " ++ code.repr ++ ")"
  | none => e.words

end FileError

/-- What a file holds: a text, or bytes that are none. -/
inductive Content where
  | text (s : String)
  | bytes (data : List UInt8)
  deriving DecidableEq, Repr

/-- What a file with the given bytes holds. -/
def Content.ofBytes (data : List UInt8) : Content :=
  match String.fromUTF8? ⟨data.toArray⟩ with
  | some s => .text s
  | none => .bytes data

/-- What can stand at a place. -/
inductive Entry where
  | file (content : Content)
  | directory
  /-- A device that is always empty and keeps nothing of what is written to it. -/
  | sink
  deriving DecidableEq, Repr

/-- What can be read from an entry; nothing can be read from a directory. -/
def Entry.content? : Entry → Option Content
  | file content => some content
  | directory => none
  | sink => some (.text "")

/-! ### Places -/

/-- Where the way to a place begins: some levels above the working directory, or
at the root of all directories. -/
inductive Base where
  | above (levels : Nat)
  | root
  deriving DecidableEq, Repr

/-- The directory above; nothing is above the root. -/
def Base.up : Base → Base
  | above levels => above (levels + 1)
  | root => root

/-- A place: the names on the way to it. -/
structure Place where
  base : Base := .above 0
  names : List String := []
  deriving DecidableEq, Repr

namespace Place

/-- The working directory. -/
def working : Place := {}

/-- One step along a path. -/
def step (place : Place) (part : String) : Place :=
  if part = "." then place
  else if part = ".." then
    if place.names.isEmpty then { place with base := place.base.up }
    else { place with names := place.names.dropLast }
  else { place with names := place.names ++ [part] }

/-- The directories on the way to a place. -/
def directoriesTo (place : Place) : List Place :=
  (List.range place.names.length).map fun n => { place with names := place.names.take n }

/-- The greatest number of bytes in a name. -/
def maxName : Nat := 255

/-- Whether the last name of a place can be one. -/
def isNameable (place : Place) : Bool :=
  place.names.getLast?.all fun name => name.utf8ByteSize ≤ maxName

end Place

/-! ### Paths -/

/-- The parts of a path. -/
def partsOf (path : String) : List String :=
  ((path.toList.splitOn '/').filter (· ≠ [])).map String.ofList

/-- Whether a path ends with a slash, so that only a directory can stand there. -/
def endsWithSlash (path : String) : Bool := path.toList.getLast? = some '/'

/-- Where a path begins. -/
def startOf (path : String) : Place :=
  if path.toList.head? = some '/' then { base := .root } else .working

/-- The least number of bytes that a path cannot have. -/
def pathLimit : Nat := 4096

/-- Why a text can be no path at all. -/
def pathError? (path : String) : Option FileError :=
  if path.toList.contains '\x00' then some .zeroByte
  else if path.isEmpty then some .notFound
  else if pathLimit ≤ path.utf8ByteSize then some .nameTooLong
  else none

/-! ### Tables -/

/-- The directories that stand below the root of every system. -/
def standardDirectories : List String :=
  ["bin", "boot", "dev", "etc", "home", "lib", "media", "mnt", "opt", "proc", "root", "run",
    "sbin", "srv", "sys", "tmp", "usr", "var"]

/-- What stands at the given names below the root of every system. -/
def standardEntry? : List String → Option Entry
  | [] => some .directory
  | [name] => if standardDirectories.contains name then some .directory else none
  | ["dev", "null"] => some .sink
  | _ => none

/-- The files and directories under and around a working directory. -/
structure FileTable where
  entries : List (Place × Entry) := []
  deriving DecidableEq, Repr

namespace FileTable

/-- What stands at a place, whatever the table holds: the working directory and
those above it, and what every system has below its root. -/
def given? (place : Place) : Option Entry :=
  match place.base with
  | .above _ => if place.names.isEmpty then some .directory else none
  | .root => standardEntry? place.names

/-- What stands at a place. -/
def find? (t : FileTable) (place : Place) : Option Entry :=
  (given? place).or ((t.entries.find? fun p => p.1 = place).map Prod.snd)

/-- Puts an entry at a place, replacing what stood there. -/
def put (t : FileTable) (place : Place) (entry : Entry) : FileTable :=
  if t.entries.any fun p => p.1 = place then
    ⟨t.entries.map fun p => if p.1 = place then (place, entry) else p⟩
  else ⟨t.entries ++ [(place, entry)]⟩

/-- Looks for what stands at a place. -/
def lookUp (t : FileTable) (place : Place) : Except FileError (Option Entry) :=
  if place.isNameable then .ok (t.find? place) else .error .nameTooLong

/-- The place to which parts lead; every place on the way must be a directory. -/
def walk (t : FileTable) : Place → List String → Except FileError Place
  | place, [] => .ok place
  | place, part :: parts =>
      match t.lookUp place with
      | .error e => .error e
      | .ok none => .error .notFound
      | .ok (some .directory) => t.walk (place.step part) parts
      | .ok (some _) => .error .notADirectory

/-- The place to which a path leads. -/
def locate (t : FileTable) (path : String) : Except FileError Place :=
  match pathError? path with
  | some e => .error e
  | none => t.walk (startOf path) (partsOf path)

/-- What the file at a path holds. -/
def read (t : FileTable) (path : String) : Except FileError Content :=
  match t.locate path with
  | .error e => .error e
  | .ok place =>
      match t.lookUp place with
      | .error e => .error e
      | .ok none => .error .notFound
      | .ok (some entry) =>
          match entry.content? with
          | none => .error .isADirectory
          | some content => if endsWithSlash path then .error .notADirectory else .ok content

/-- The text of the file at a path. -/
def readText (t : FileTable) (path : String) : Except FileError String :=
  match t.read path with
  | .error e => .error e
  | .ok (.text s) => .ok s
  | .ok (.bytes _) => .error .notText

/-- Writes a text to the file at a path, which is made if it does not exist.  A
path that ends with a slash names a directory, whether there is one or not. -/
def write (t : FileTable) (path : String) (text : String) : Except FileError FileTable :=
  match t.locate path with
  | .error e => .error e
  | .ok place =>
      if endsWithSlash path then .error .isADirectory
      else
        match t.lookUp place with
        | .error e => .error e
        | .ok (some .directory) => .error .isADirectory
        | .ok (some .sink) => .ok t
        | .ok _ => .ok (t.put place (.file (.text text)))

/-- Puts directories at the given places that are still free. -/
def putDirectories (t : FileTable) (places : List Place) : FileTable :=
  places.foldl (fun t place => if (t.find? place).isSome then t else t.put place .directory) t

/-- Puts a file or a directory at a path, with all directories above it. -/
def place (t : FileTable) (path : String) (entry : Entry) : FileTable :=
  let place := (partsOf path).foldl Place.step (startOf path)
  (t.putDirectories place.directoriesTo).put place entry

/-- The files under the working directory with their paths. -/
def files (t : FileTable) : List (String × Content) :=
  t.entries.filterMap fun p =>
    match p with
    | (⟨.above 0, names⟩, .file content) => some ("/".intercalate names, content)
    | _ => none

end FileTable

end Sequencer
