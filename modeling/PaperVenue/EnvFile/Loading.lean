import PaperVenue.EnvFile.Binding
import PaperVenue.EnvFile.Search
import PaperVenue.Exchange.Session

/-!
# Loading an environment file

The values of an environment file may mention variables, `${NAME}` or `${NAME:-default}`.  A
variable means its value in the environment, or else the value that an earlier line of the file gave
it, or else its default, which is empty if none is written.

Loading adds to the environment the keys that are not in it, even if the value there is empty.  Of
several lines with one key the last one counts, and if it has no value the key is not added.

What cannot be read is noted, and so is that nothing is read because environment files are switched
off.  These are notes of the loader and not of the venue, and they are made before the venue makes
any.
-/

namespace PaperVenue

namespace EnvFile

/-! ## Variables in values -/

/-- A part of a value: characters, or a variable with its default. -/
inductive Atom where
  | literal (c : Char)
  | reference (name : String) (default : String)
  deriving DecidableEq

/-- The variable behind `${`, and what is left behind its brace. -/
def reference? (cs : List Char) : Option (Atom × List Char) :=
  let name := cs.takeWhile fun c => !(c = '\x7d' || c = ':')
  match cs.drop name.length with
  | ':' :: '-' :: rest =>
    let default := rest.takeWhile (· ≠ '\x7d')
    match rest.drop default.length with
    | _ :: after => some (.reference (String.ofList name) (String.ofList default), after)
    | [] => none
  | '\x7d' :: after => some (.reference (String.ofList name) "", after)
  | _ => none

/-- The parts of a value of at most `limit` characters. -/
def atomsUpTo : Nat → List Char → List Atom
  | 0, _ => []
  | _, [] => []
  | limit + 1, '$' :: '\x7b' :: cs => match reference? cs with
    | some (a, after) => a :: atomsUpTo limit after
    | none => .literal '$' :: atomsUpTo limit ('\x7b' :: cs)
  | limit + 1, c :: cs => .literal c :: atomsUpTo limit cs

/-- The parts of a value. -/
def atoms (s : String) : List Atom := atomsUpTo s.toList.length s.toList

/-- What a variable means: its value in the environment, or else in the lines before. -/
def lookup (env : Environment) (earlier : Table String (Option String)) (name default : String) :
    String :=
  match Table.get? env name with
  | some v => v
  | none => match Table.get? earlier name with
    | some v => v.getD ""
    | none => default

/-- What a part of a value means. -/
def Atom.resolve (env : Environment) (earlier : Table String (Option String)) : Atom → List Char
  | literal c => [c]
  | reference name default => (lookup env earlier name default).toList

/-- What a value means. -/
def expand (env : Environment) (earlier : Table String (Option String)) (s : String) : String :=
  String.ofList ((atoms s).flatMap (Atom.resolve env earlier))

/-- Add a line to the lines before it, with its value expanded. -/
def addBinding (env : Environment) (earlier : Table String (Option String)) (b : Binding) :
    Table String (Option String) :=
  Table.put earlier b.key (b.value.map (expand env earlier))

/-- What the lines of a file say, key by key. -/
def resolve (env : Environment) (bs : List Binding) : Table String (Option String) :=
  bs.foldl (addBinding env) []

/-! ## The environment afterwards -/

/-- Set a variable that the file gives a value, unless it is set. -/
def setMissing (env : Environment) (entry : String × Option String) : Except Failure Environment :=
  match entry.2 with
  | none => .ok env
  | some value =>
    if Table.has env entry.1 then .ok env
    else match Surroundings.variableFault? entry.1 value with
      | some fault => .error (.value fault)
      | none => .ok (Table.put env entry.1 value)

/-- The environment with the bindings of a file. -/
def extend (env : Environment) (bs : List Binding) : Except Failure Environment :=
  (resolve env bs).foldlM setMissing env

/-- The variable that switches environment files off. -/
def disablingKey : String := "PYTHON_DOTENV_DISABLED"

/-- Are environment files switched off? -/
def isDisabled (env : Environment) : Bool :=
  match Table.get? env disablingKey with
  | none => false
  | some s => ["1", "true", "t", "yes", "y"].contains (foldCase s)

/-- The characters of a file of the given octets. -/
def text (octets : List UInt8) : Except Failure (List Char) :=
  ((Utf8.decode false octets).mapError .environmentFile).map fun t => t.toChars?.getD []

/-- The characters of the file at a path, if it is there.  A path with a NUL in it is refused. -/
def textAt? (files : Files) (path : String) : Except Failure (Option (List Char)) :=
  if path.toList.contains '\x00' then .error (.value .embeddedNul)
  else match files.read? path with
    | none => .ok none
    | some octets => (text octets).map some

/-- The characters of the chosen file, if there is one. -/
def chosenText? (files : Files) (path : Option String) : Except Failure (Option (List Char)) :=
  match chosen? files path with
  | none => .ok none
  | some name => textAt? files name

/-- The environment with the bindings of a text; a file that is not there adds nothing. -/
def extendBy (env : Environment) : Option (List Char) → Except Failure Environment
  | none => .ok env
  | some cs => extend env (bindings cs)

/-- The environment with the chosen file, unless environment files are switched off. -/
def load (env : Environment) (files : Files) (path : Option String) : Except Failure Environment :=
  if isDisabled env then .ok env else chosenText? files path >>= extendBy env

/-! ## Notes of the loader -/

/-- The note of a line at which something begins that cannot be read. -/
def unreadableNote (line : Nat) : Note :=
  { severity := .warning, part := .envFile
    message := Text.ofString
      ("python-dotenv could not parse statement starting at line " ++ toString line) }

/-- The note that environment files are switched off. -/
def disabledNote : Note :=
  { severity := .debug, part := .envFile
    message := Text.ofString ("python-dotenv: .env loading disabled by " ++ disablingKey ++
      " environment variable") }

/-- What loading notes.  A file that is no text leaves no note, because nothing in it is read. -/
def notes (env : Environment) (files : Files) (path : Option String) : List Note :=
  if isDisabled env then [disabledNote]
  else match chosenText? files path with
    | .ok (some cs) => (unreadableLines cs).map unreadableNote
    | _ => []

/-! ## What loading looks at -/

/-- The paths of which one is the chosen file, if no environment file lies higher up. -/
def candidates (height : Nat) (path : Option String) : List String :=
  match given? path with
  | some name => [name]
  | none => searchPaths height

/-- The name that a part of a value mentions, if it mentions one. -/
def Atom.name? : Atom → Option String
  | literal _ => none
  | reference name _ => some name

/-- The variables that a binding can look at: its key, and those that its value mentions. -/
def Binding.mentioned (b : Binding) : List String :=
  b.key :: (b.value.map fun v => (atoms v).filterMap Atom.name?).getD []

/-- The variables that loading can look at. -/
def mentioned (files : Files) (path : Option String) : List String :=
  disablingKey :: match chosenText? files path with
    | .ok (some cs) => (bindings cs).flatMap Binding.mentioned
    | _ => []

end EnvFile

end PaperVenue
