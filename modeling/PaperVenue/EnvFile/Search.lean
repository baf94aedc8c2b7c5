import PaperVenue.Files

/-!
# Which environment file is read

An environment file is read that is named.  If none is, then it is looked for under its usual name,
first in the working directory and then in one directory above after the other; the nearest one that
is there is read.  A directory of that name does not count.

The search ends with the directories that are known: above the highest of them there is no file.
-/

namespace PaperVenue

/-- How many directories up the highest known entry lies. -/
def Files.height (fs : Files) : Nat :=
  (Table.keys fs).foldr (fun parts n => max (parts.takeWhile (· = "..")).length n) 0

namespace EnvFile

/-- The name of an environment file that nobody names otherwise. -/
def defaultName : String := ".env"

/-- The path to the environment file that lies a number of directories up. -/
def searchPath : Nat → String
  | 0 => defaultName
  | n + 1 => "../" ++ searchPath n

/-- The paths to the environment files of the working directory and of a number of directories above
it, the nearest one first. -/
def searchPaths (height : Nat) : List String := (List.range (height + 1)).map searchPath

/-- The path to the nearest environment file. -/
def nearest? (files : Files) : Option String :=
  (searchPaths files.height).find? fun path => (files.read? path).isSome

/-- The path that was given, unless it is empty. -/
def given? (path : Option String) : Option String := path.filter (· ≠ "")

/-- The path to the environment file that is read: the one that was given, or else the nearest
one. -/
def chosen? (files : Files) (path : Option String) : Option String :=
  (given? path).or (nearest? files)

end EnvFile

end PaperVenue
