/-
TwoEnded.Command.Folder — reading a source file.

The command line reads one file. `ReadFault` lists what can go wrong then, with
the words of the operating system, and becomes a `Fault` that names the path as
it was given.

A `Folder` is a working directory with its contents, held as data. Its
`Folder.read` follows a path as the operating system does: a component that is
followed by another, or by a slash, must be a directory; the directory's own
contents are all that is known, so nothing is found outside.
-/
import TwoEnded.Fault
import TwoEnded.Text.Split

namespace TwoEnded.Command

/-! ## Faults of reading -/

/-- Why a source file could not be read. -/
inductive ReadFault where
  | notFound
  | notADirectory
  | isADirectory
  /-- The file is not UTF-8 text. -/
  | notText
  /-- Any other reason, in the words of the operating system. -/
  | other (reason : String)
  deriving DecidableEq, Repr

namespace ReadFault

/-- The reason in words. -/
def text : ReadFault → String
  | .notFound => "No such file or directory (os error 2)"
  | .notADirectory => "Not a directory (os error 20)"
  | .isADirectory => "Is a directory (os error 21)"
  | .notText => "stream did not contain valid UTF-8"
  | .other reason => reason

/-- The kind of fault. -/
def kind : ReadFault → FaultKind
  | .notFound => .fileNotFound
  | _ => .ioError

/-- The fault of reading the file at a path. -/
def fault (f : ReadFault) (path : String) : Fault :=
  (Fault.ofKind f.kind).withDetail (path ++ ": " ++ f.text)

end ReadFault

/-- The text of a file with these bytes. -/
def decode (bytes : ByteArray) : Except ReadFault String :=
  match String.fromUTF8? bytes with
  | some text => .ok text
  | none => .error .notText

/-! ## A working directory -/

/-- What a path leads to. -/
inductive Entry where
  | file (bytes : ByteArray)
  | directory

/-- A working directory: what it holds, by path from there. -/
structure Folder where
  entries : List (String × Entry)

/-- The components of a path, the parts between its slashes. -/
def components (path : String) : List String :=
  (Text.pieces '/' path.toList).map String.ofList

namespace Folder

/-- What lies at a place inside the folder. -/
def find? (folder : Folder) (place : List String) : Option Entry :=
  if place.isEmpty then some .directory
  else
    match folder.entries.find? fun (path, _) => components path == place with
    | some (_, entry) => some entry
    | none =>
      if folder.entries.any fun (path, _) => place.isPrefixOf (components path) then
        some .directory
      else none

/-- Whether a place is a directory; `none` stands for a place outside the folder. -/
def isDirectory (folder : Folder) : Option (List String) → Bool
  | none => true
  | some place =>
    match folder.find? place with
    | some .directory => true
    | _ => false

/-- The directory above a place. -/
def parent : Option (List String) → Option (List String)
  | none => none
  | some place => if place.isEmpty then none else some place.dropLast

/-- Follows the components of a path from a place. -/
def follow (folder : Folder) (place : Option (List String)) :
    List String → Except ReadFault (Option (List String))
  | [] => .ok place
  | component :: rest =>
    if !folder.isDirectory place then .error .notADirectory
    else if component == "" || component == "." then follow folder place rest
    else if component == ".." then follow folder (parent place) rest
    else
      match place with
      | none => .error .notFound
      | some inside =>
        match folder.find? (inside ++ [component]) with
        | some _ => follow folder (some (inside ++ [component])) rest
        | none => .error .notFound

/-- The text of the file at a path. -/
def read (folder : Folder) (path : String) : Except ReadFault String :=
  let origin := if path.toList.head? = some '/' then none else some []
  match follow folder origin (components path) with
  | .error f => .error f
  | .ok none => .error .isADirectory
  | .ok (some place) =>
    match folder.find? place with
    | some (.file bytes) => decode bytes
    | some .directory => .error .isADirectory
    | none => .error .notFound

end Folder

end TwoEnded.Command
