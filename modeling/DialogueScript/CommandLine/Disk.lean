import DialogueScript.Text.Split

/-!
# Files in a directory

A `Disk` is what a directory holds: files at locations, whose contents are bytes. A folder is there
if a file lies in it; the directory itself and the folders around it are always there, but nothing
else is known about what is around. `Disk.read` and `Disk.write` follow a path name by name, and a
`FileError` says why there is nothing to read or to write at its end. Only a folder can be passed
through, even by a name that leads back out of it. Writing replaces a file or makes a new one, but
makes no folders.
-/

set_option autoImplicit false
set_option relaxedAutoImplicit false

namespace DialogueScript

/-- Why a file cannot be read or written. -/
inductive FileError where
  | notFound
  /-- The path leads through a file. -/
  | notADirectory
  /-- The path leads to a folder. -/
  | isADirectory
  /-- The path, or a name in it, is longer than any can be. -/
  | nameTooLong
  /-- The path holds a character that no path may hold. -/
  | nulInPath
  /-- Any other reason that the system gives. -/
  | system (reason : String)
deriving DecidableEq, Repr

/-- The wording of a failure. -/
def FileError.message : FileError → String
  | notFound => "No such file or directory (os error 2)"
  | notADirectory => "Not a directory (os error 20)"
  | isADirectory => "Is a directory (os error 21)"
  | nameTooLong => "File name too long (os error 36)"
  | nulInPath => "file name contained an unexpected NUL byte"
  | system reason => reason

/-! ### Paths -/

/-- A name in a path. An empty name and a single dot lead nowhere else, two dots lead out. -/
abbrev FileName := List Char

namespace FileName

/-- The name that leads to the folder around. -/
def parent : FileName := ['.', '.']

/-- The most bytes that a name has. -/
def maxSize : Nat := 255

/-- Whether a name is longer than any file's. -/
def isTooLong (name : FileName) : Bool :=
  maxSize < (String.ofList name).utf8ByteSize

end FileName

/-- Where a path leads from the directory: the names on the way down. In front of them may stand
the way up, which is a pair of dots for every folder, or an empty name for the root. -/
abbrev Location := List FileName

namespace Location

/-- The root of the file system. -/
def root : Location := [[]]

/-- Whether a location is the directory itself or lies above it. -/
def isAround (location : Location) : Bool :=
  location.all fun name => name = FileName.parent || name.isEmpty

/-- Where a name leads from a folder. -/
def enter (location : Location) (name : FileName) : Location :=
  if name = [] ∨ name = ['.'] then location
  else if name ≠ FileName.parent then location ++ [name]
  else if location = root then root
  else if location.isAround then location ++ [name]
  else location.dropLast

end Location

/-- A path as it is written: where it starts and the names between its slashes. -/
structure Path where
  start : Location
  names : List FileName
deriving DecidableEq, Repr

namespace Path

/-- A path, which starts at the root if a slash comes first. -/
def ofString (path : String) : Path :=
  ⟨if path.toList.head? = some '/' then Location.root else [], Text.split '/' path.toList⟩

/-- Where a path leads if nothing is in its way. -/
def location (path : Path) : Location :=
  path.names.foldl Location.enter path.start

/-- Whether a path asks for a folder: it ends in a slash. -/
def asksForFolder (path : Path) : Bool :=
  path.names.getLast? = some []

/-- The names of a path without the slashes at its end. -/
def trimmedNames (path : Path) : List FileName :=
  (path.names.reverse.dropWhile List.isEmpty).reverse

/-- The most bytes that a path has. -/
def maxSize : Nat := 4095

/-- A path that the system looks at. -/
def check (path : String) : Except FileError Path :=
  if path.toList.contains '\x00' then .error .nulInPath
  else if path.isEmpty then .error .notFound
  else if maxSize < path.utf8ByteSize then .error .nameTooLong
  else .ok (ofString path)

end Path

/-! ### Files -/

/-- The files of a directory. -/
structure Disk where
  files : List (Location × List UInt8)
deriving DecidableEq, Repr

namespace Disk

/-- The content of a file. -/
def file? (disk : Disk) (location : Location) : Option (List UInt8) :=
  disk.files.lookup location

/-- Whether a folder is at a location. -/
def isFolder (disk : Disk) (location : Location) : Bool :=
  location.isAround ||
    disk.files.any fun (other, _) => location.isPrefixOf other && location != other

/-- Where a name leads from a location, which must be a folder. -/
def step (disk : Disk) (location : Location) (name : FileName) : Except FileError Location :=
  if !disk.isFolder location then
    .error (if (disk.file? location).isSome then .notADirectory else .notFound)
  else if name.isTooLong then .error .nameTooLong
  else .ok (location.enter name)

/-- Where names lead, one behind another. -/
def walk (disk : Disk) : Location → List FileName → Except FileError Location
  | location, [] => .ok location
  | location, name :: names => disk.step location name >>= fun next => disk.walk next names

/-- Reads a file. -/
def read (disk : Disk) (name : String) : Except FileError (List UInt8) := do
  let path ← Path.check name
  let location ← disk.walk path.start path.names
  match disk.file? location with
  | some content => .ok content
  | none => .error (if disk.isFolder location then .isADirectory else .notFound)

/-- The directory with a file replaced or added. -/
def put (disk : Disk) (location : Location) (content : List UInt8) : Disk :=
  match disk.file? location with
  | some _ => ⟨disk.files.map fun (other, old) =>
      (other, if other = location then content else old)⟩
  | none => ⟨disk.files ++ [(location, content)]⟩

/-- Writes a file. The folder that it lies in must be there. A slash behind the name makes it that
of a folder, whether there is one or not. -/
def write (disk : Disk) (name : String) (content : List UInt8) : Except FileError Disk := do
  let path ← Path.check name
  let names := path.trimmedNames
  let last := names.getLast?.getD []
  let folder ← disk.walk path.start names.dropLast
  let location ← disk.step folder (if path.asksForFolder then [] else last)
  if path.asksForFolder || disk.isFolder location then .error .isADirectory
  else .ok (disk.put location content)

end Disk

end DialogueScript
