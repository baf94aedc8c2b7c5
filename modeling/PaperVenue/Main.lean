import PaperVenue.CommandLine.Report

/-!
# The program

The outer layer: it looks at the process and the file system as far as a command line needs them,
hands all of it to `CommandLine.run`, and prints what comes back.

What it has to look at is told by the command line (`EnvFile.candidates`,
`CommandLine.variableNames`, `CommandLine.catalogPath?`), and what it finds is kept under the path
where it was found.  Which of the environment files is read, and what becomes of it, is decided by
`CommandLine.run`.
-/

namespace PaperVenue

namespace Program

/-- How far up the tree an environment file is looked for. -/
def searchHeight : Nat := 64

/-- What stands at a path of the file system. -/
def observe (path : String) : IO (Option FileNode) := do
  try
    let octets ← IO.FS.readBinFile path
    return some (.file octets.toList)
  catch
    | .inappropriateType .. => return some .directory
    | _ => return none

/-- Add what stands at a path, and at the directories that lead to it; behind a file there is
nothing to look at. -/
def gather (files : Files) (path : String) : IO Files := do
  let p := Path.ofString path
  let mut files := files
  for n in List.range p.parts.length do
    let here := ({ p with parts := p.parts.take (n + 1) } : Path).text
    match ← observe here with
    | none => return files
    | some .directory => files := files.store here .directory
    | some (.file octets) => return files.store here (.file octets)
  return files

/-- The values that variables have. -/
def gatherEnvironment (names : List String) : IO Environment := do
  let mut env : Environment := []
  for name in names do
    match ← IO.getEnv name with
    | some value => env := Table.put env name value
    | none => pure ()
  return env

/-- A text as it can be printed: a surrogate becomes a replacement character. -/
def shown (t : Text) : String :=
  String.ofList (t.map fun p => p.toChar?.getD '\uFFFD')

/-- The wording of a failure that ends the program. -/
def failureText : Failure → String
  | .venue error => shown error.message
  | .arithmetic _ => "arithmetic signal"
  | .value fault => fault.message
  | .unbound => "strategy is not bound to sessions"
  | .missing .logLevel => "no log level"
  | .missing .amount => "no amount"
  | .missing .exchange => "no exchange"
  | .environmentFile error => error.message

/-- Print how a command line ended; the answer is the exit code. -/
def finish : Except Failure CommandLine.Outcome → IO UInt32
  | .ok (.stopped (.help program)) => do
    IO.println ("usage: " ++ program)
    return 0
  | .ok (.stopped (.usage program message)) => do
    IO.eprintln (CommandLine.usageLine program message)
    return 2
  | .ok (.finished code output errors) => do
    IO.print (shown output)
    IO.eprint (shown errors)
    return code.toUInt32
  | .error failure => do
    IO.eprintln (failureText failure)
    return 1

/-- Gather what an invocation can look at: the environment and the files. -/
def surroundings (invocation : CommandLine.Invocation) : IO (Environment × Files) := do
  let files ← (EnvFile.candidates searchHeight invocation.envFile).foldlM gather []
  let env ← gatherEnvironment (CommandLine.variableNames invocation files)
  let catalog := CommandLine.catalogPath? invocation env files
  return (env, ← catalog.toList.foldlM gather files)

end Program

end PaperVenue

open PaperVenue in
/-- Carry out the command line of the process. -/
def main (args : List String) : IO UInt32 := do
  match CommandLine.Invocation.ofArguments args with
  | .error why => Program.finish (.ok (.stopped why))
  | .ok invocation =>
    let (env, files) ← Program.surroundings invocation
    let notes := CommandLine.journal args env files
    IO.eprint (Program.shown (CommandLine.journalOutput invocation.logLevel notes))
    Program.finish (CommandLine.run args env files).outcome
