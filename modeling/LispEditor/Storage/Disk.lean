import LispEditor.Storage.Path
import LispEditor.Storage.Utf8
import LispEditor.Text.Quoted

/-!
# Disks

Files and directories, seen from a working directory. The working directory lies in others, which
are reached by two dots only: their names are not known. Reading and writing fail for a few reasons
that are told to the user, and a disk may keep anyone from an entry, or from changing it. A text file
is UTF-8, and whichever way its lines end, they are read with newlines.
-/

namespace LispEditor

/-- What a disk says where it does not let anyone do something, with the number of the answer: that
there is no permission, for instance, or that a device has failed. -/
structure Refusal where
  code : Nat
  text : String
  deriving DecidableEq, Repr

/-- Why a file cannot be opened. -/
inductive Fault where
  | notFound
  | notDirectory
  | isDirectory
  /-- A path, or one of its parts, of more bytes than a disk takes. -/
  | nameTooLong
  /-- A path with a null character, which no disk can be asked for. -/
  | nullInName
  | refused (refusal : Refusal)
  deriving DecidableEq, Repr

namespace Fault

/-- The number of a fault that a disk answers with. -/
def code? : Fault → Option Nat
  | notFound => some 2
  | notDirectory => some 20
  | isDirectory => some 21
  | nameTooLong => some 36
  | nullInName => none
  | refused refusal => some refusal.code

/-- The wording of a fault. -/
def text : Fault → String
  | notFound => "No such file or directory"
  | notDirectory => "Not a directory"
  | isDirectory => "Is a directory"
  | nameTooLong => "File name too long"
  | nullInName => "embedded null byte"
  | refused refusal => refusal.text

/-- Whether a fault only says that there is nothing: the path leads nowhere, through a file, around
in circles or to something closed, or it is none that a disk can be asked for. -/
def isAbsence (fault : Fault) : Bool :=
  fault.code?.all fun code => code ∈ [2, 9, 20, 40]

/-- The message about a fault at a path. -/
def message (fault : Fault) (path : Path) : String :=
  match fault.code? with
  | none => fault.text
  | some code =>
      "[Errno " ++ code.repr ++ "] " ++ fault.text ++ ": "
        ++ String.ofList (Text.quoted path.text)

end Fault

/-- What a path leads to. -/
inductive Entry where
  | file (bytes : List UInt8)
  | directory
  deriving DecidableEq, Repr

/-! ### Locations -/

/-- A directory that is always there: the root, or the one so many levels above the working
directory, which is itself at level 0. -/
inductive Origin where
  | root
  | above (levels : Nat)
  deriving DecidableEq, Repr

/-- The place of an entry: an origin, and the names on the way down from it. -/
structure Location where
  origin : Origin
  names : List Text
  deriving DecidableEq, Repr

namespace Location

/-- Where a path starts. -/
def start (path : Path) : Location :=
  ⟨if path.root.isEmpty then .above 0 else .root, []⟩

/-- The directory that a location lies in. The root lies in itself. -/
def parent : Location → Location
  | ⟨.root, []⟩ => ⟨.root, []⟩
  | ⟨.above levels, []⟩ => ⟨.above (levels + 1), []⟩
  | ⟨origin, name :: names⟩ => ⟨origin, (name :: names).dropLast⟩

/-- The location of a name in a directory. -/
def child (location : Location) (name : Text) : Location :=
  ⟨location.origin, location.names ++ [name]⟩

end Location

/-! ### Disks -/

/-- What a disk keeps anyone from. Nothing is there that can be written but not read. -/
inductive Barrier where
  /-- An entry that cannot be read, searched or changed. -/
  | closed (refusal : Refusal)
  /-- An entry that cannot be changed. -/
  | fixed (refusal : Refusal)
  deriving DecidableEq, Repr

/-- The entries of a disk, apart from the origins, and what it keeps anyone from. -/
structure Disk where
  entries : List (Location × Entry)
  barriers : List (Location × Barrier)
  deriving DecidableEq, Repr

namespace Disk

/-- A disk with nothing on it. -/
def empty : Disk := ⟨[], []⟩

/-- The most bytes that one part of a path may have. -/
def maxNameBytes : Nat := 255

/-- The most bytes that a whole path may have. -/
def maxPathBytes : Nat := 4095

/-- What is at a location. -/
def entry? (disk : Disk) (location : Location) : Option Entry :=
  if location.names.isEmpty then some .directory
  else (disk.entries.find? fun entry => entry.1 == location).map Prod.snd

/-- What a disk says to whom wants to read or search what is at a location. -/
def readRefusal? (disk : Disk) (location : Location) : Option Refusal :=
  match disk.barriers.lookup location with
  | some (.closed refusal) => some refusal
  | _ => none

/-- What a disk says to whom wants to change what is at a location. -/
def changeRefusal? (disk : Disk) (location : Location) : Option Refusal :=
  match disk.barriers.lookup location with
  | some (.closed refusal) | some (.fixed refusal) => some refusal
  | none => none

/-- Puts up a barrier at a location. -/
def bar (disk : Disk) (location : Location) (barrier : Barrier) : Disk :=
  { disk with barriers := (location, barrier) :: disk.barriers }

/-- Follows the parts of a path. Each step needs a directory to start from that can be searched. -/
def follow (disk : Disk) (location : Location) : List Text → Except Fault Location
  | [] => .ok location
  | part :: parts =>
      match disk.entry? location, disk.readRefusal? location with
      | none, _ => .error .notFound
      | some (.file _), _ => .error .notDirectory
      | some .directory, some refusal => .error (.refused refusal)
      | some .directory, none =>
          if part == ['.', '.'] then disk.follow location.parent parts
          else if (Utf8.encode part).length > maxNameBytes then .error .nameTooLong
          else disk.follow (location.child part) parts

/-- The location of a path. -/
def locate (disk : Disk) (path : Path) : Except Fault Location :=
  if path.text.contains '\x00' then .error .nullInName
  else if (Utf8.encode path.text).length > maxPathBytes then .error .nameTooLong
  else disk.follow (Location.start path) path.parts

/-- Puts an entry at a location. -/
def put (disk : Disk) (location : Location) (entry : Entry) : Disk :=
  { disk with
    entries := disk.entries.filter (fun old => old.1 != location) ++ [(location, entry)] }

/-- Takes away what is at a path. -/
def remove (disk : Disk) (path : Path) : Disk :=
  match disk.locate path with
  | .ok location => { disk with entries := disk.entries.filter fun old => old.1 != location }
  | .error _ => disk

/-- Makes directories one inside the other, the first of them at a location. -/
def makeDirectories (disk : Disk) (location : Location) : List Text → Disk
  | [] => disk
  | part :: parts =>
      if part == ['.', '.'] then disk.makeDirectories location.parent parts
      else (disk.put (location.child part) .directory).makeDirectories (location.child part) parts

/-- Makes a directory and those above it. -/
def makeDirectory (disk : Disk) (path : Path) : Disk :=
  disk.makeDirectories (Location.start path) path.parts

/-- Whether a path leads to something. Where a name is too long, or the way there is closed, there is
no telling. -/
def contains (disk : Disk) (path : Path) : Except Fault Bool :=
  match disk.locate path with
  | .ok location => .ok (disk.entry? location).isSome
  | .error fault => if fault.isAbsence then .ok false else .error fault

/-- The bytes of the file at a path. -/
def read (disk : Disk) (path : Path) : Except Fault (List UInt8) :=
  match disk.locate path with
  | .error fault => .error fault
  | .ok location =>
      match disk.entry? location, disk.readRefusal? location with
      | none, _ => .error .notFound
      | some _, some refusal => .error (.refused refusal)
      | some .directory, none => .error .isDirectory
      | some (.file bytes), none => .ok bytes

/-- What a disk says to whom wants to write a file at a location. A new file changes the directory
that it is put in. -/
def writeRefusal? (disk : Disk) (location : Location) : Option Refusal :=
  (disk.changeRefusal? location).or
    (if (disk.entry? location).isSome then none else disk.changeRefusal? location.parent)

/-- Writes the file at a path, which is made if it is not there. -/
def write (disk : Disk) (path : Path) (bytes : List UInt8) : Except Fault Disk :=
  match disk.locate path with
  | .error fault => .error fault
  | .ok location =>
      match disk.entry? location, disk.writeRefusal? location with
      | some .directory, _ => .error .isDirectory
      | _, some refusal => .error (.refused refusal)
      | _, none => .ok (disk.put location (.file bytes))

end Disk

/-! ### Text files -/

/-- Why a text file cannot be read. -/
inductive ReadError where
  | unopened (fault : Fault) (path : Path)
  | undecodable (error : Utf8.DecodeError)
  deriving DecidableEq, Repr

/-- The message about a failed read. -/
def ReadError.message : ReadError → String
  | unopened fault path => fault.message path
  | undecodable error => error.message

/-- A text in which every line ends with a newline. -/
def unifyNewlines : Text → Text
  | [] => []
  | '\r' :: '\n' :: rest => '\n' :: unifyNewlines rest
  | c :: rest => (if c == '\r' then '\n' else c) :: unifyNewlines rest

/-- The text of the file at a path. -/
def Disk.readText (disk : Disk) (path : Path) : Except ReadError Text :=
  match disk.read path with
  | .error fault => .error (.unopened fault path)
  | .ok bytes =>
      match Utf8.decode bytes with
      | .error error => .error (.undecodable error)
      | .ok text => .ok (unifyNewlines text)

/-- Writes a text to the file at a path. -/
def Disk.writeText (disk : Disk) (path : Path) (text : Text) : Except Fault Disk :=
  disk.write path (Utf8.encode text)

end LispEditor
