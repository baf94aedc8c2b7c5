import PaperVenue.Text.Quoted
import PaperVenue.Encoding.Utf8
import PaperVenue.Table

/-!
# Files

A file or directory is stored under the parts of its path, `["d", "f.json"]` for `d/f.json`, and
the directories above it are stored as well, so an entry is found by one look.  Paths are relative
to a working directory.  The parts of an absolute path begin with the part `/`, and a path that
leads above the working directory begins with parts `..`; everywhere else `..` has been resolved.

A path is walked part by part, and the walk is what decides the error: a part below something that
is no directory, a part that is missing, a part that is too long.  `..` goes up from where the walk
stands, so it needs the part before it to exist.

`Path.ofString` simplifies a path before it is walked or shown: repeated slashes and parts `.` go,
and with them a slash at the end; `..` stays.
-/

namespace PaperVenue

/-! ## Paths -/

/-- A path: the slashes in front and the parts. -/
structure Path where
  root : String
  parts : List String
  deriving DecidableEq

namespace Path

/-- The slashes that an absolute path keeps: exactly two stay two, any other number is one. -/
def rootOf (cs : List Char) : String :=
  match (cs.takeWhile (· = '/')).length with
  | 0 => ""
  | 2 => "//"
  | _ => "/"

/-- The parts between slashes, empty ones too. -/
def split (cs : List Char) : List (List Char) :=
  cs.foldr (fun c parts => if c = '/' then [] :: parts else match parts with
    | [] => [[c]]
    | p :: ps => (c :: p) :: ps) [[]]

/-- A path without what does not matter. -/
def ofString (s : String) : Path :=
  { root := rootOf s.toList
    parts := ((split s.toList).map String.ofList).filter fun p => p ≠ "" ∧ p ≠ "." }

/-- The parts of a path, an absolute one marked by a part `/`. -/
def steps (p : Path) : List String := if p.root = "" then p.parts else "/" :: p.parts

/-- The parts one directory up: the last part goes, but the root stays, and above the working
directory the way leads up. -/
def up (parts : List String) : List String :=
  match parts.getLast? with
  | none => [".."]
  | some ".." => parts ++ [".."]
  | some "/" => parts
  | some _ => parts.dropLast

/-- The parts under which the entry at a path is stored. -/
def resolved (p : Path) : List String :=
  p.steps.foldl (fun here part => if part = ".." then up here else here ++ [part]) []

/-- The text of a path. -/
def text (p : Path) : String :=
  if p.root = "" ∧ p.parts = [] then "." else p.root ++ String.intercalate "/" p.parts

end Path

/-! ## Errors -/

/-- Why a file cannot be read. -/
inductive FileFault where
  | notFound | notADirectory | isADirectory | nameTooLong
  deriving DecidableEq

/-- The system's number of a fault. -/
def FileFault.number : FileFault → Nat
  | notFound => 2
  | notADirectory => 20
  | isADirectory => 21
  | nameTooLong => 36

/-- The system's wording of a fault. -/
def FileFault.wording : FileFault → String
  | notFound => "No such file or directory"
  | notADirectory => "Not a directory"
  | isADirectory => "Is a directory"
  | nameTooLong => "File name too long"

/-- The message of a fault at a path. -/
def FileFault.message (f : FileFault) (path : String) : String :=
  "[Errno " ++ toString f.number ++ "] " ++ f.wording ++ ": " ++ quoted path

/-! ## The stored files -/

/-- What is stored under a list of parts. -/
inductive FileNode where
  | file (octets : List UInt8)
  | directory

/-- The files below the working directory. -/
abbrev Files := Table (List String) FileNode

/-- The octets of a string. -/
def octetsOf (s : String) : List UInt8 := Utf8.encode (Text.ofString s)

namespace Files

/-- The longest name of one part, in octets. -/
def maxName : Nat := 255

/-- The longest path, in octets. -/
def maxPath : Nat := 4095

/-- The directories above a list of parts, outermost first. -/
def ancestors (parts : List String) : List (List String) :=
  (List.range (parts.length - 1)).map fun n => parts.take (n + 1)

/-- Store an entry and the directories above it. -/
def store (fs : Files) (name : String) (node : FileNode) : Files :=
  let parts := (Path.ofString name).resolved
  Table.put (Table.putAll fs ((ancestors parts).map fun p => (p, .directory))) parts node

/-- Take an entry away. -/
def remove (fs : Files) (name : String) : Files := Table.erase fs (Path.ofString name).resolved

/-- Is it the working directory, a directory above it, or the root? -/
def isBase (parts : List String) : Bool := parts = ["/"] || parts.all (· = "..")

/-- Is there a directory under these parts? -/
def isDirectory (fs : Files) (parts : List String) : Bool :=
  isBase parts || match Table.get? fs parts with
    | some .directory => true
    | _ => false

/-- Walk one part further.  An empty part and `.` stay where they are, but only in a directory. -/
def walkPart (fs : Files) (here : List String) (part : String) : Except FileFault (List String) :=
  if !isDirectory fs here then .error .notADirectory
  else if part = "" ∨ part = "." then .ok here
  else if part = ".." then .ok (Path.up here)
  else if maxName < (octetsOf part).length then .error .nameTooLong
  else if Table.has fs (here ++ [part]) then .ok (here ++ [part])
  else .error .notFound

/-- Walk a path from the working directory, or from the root if it starts with a slash. -/
def walk (fs : Files) (path : String) : Except FileFault (List String) :=
  if maxPath < (octetsOf path).length then .error .nameTooLong
  else
    let cs := path.toList
    let start := if cs.head? = some '/' then ["/"] else []
    ((Path.split cs).map String.ofList).foldlM (walkPart fs) start

/-- The octets of the file at a path. -/
def read (fs : Files) (path : String) : Except FileFault (List UInt8) := do
  match Table.get? fs (← walk fs path) with
  | some (.file octets) => pure octets
  | _ => throw .isADirectory

/-- The octets of the file at a path, if there is a file. -/
def read? (fs : Files) (path : String) : Option (List UInt8) := (read fs path).toOption

end Files

end PaperVenue
