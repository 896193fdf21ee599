import ThreadRegions.CommandLine.Run

/-!
# The program

Reading files and printing, around `ThreadRegions.CommandLine.run`.
-/

namespace ThreadRegions.CommandLine

/-- Whether the system reports the error with the given number, which may come with a minus sign. -/
def isCode (number code : UInt32) : Bool := code = number || code = 0 - number

/-- Why the system could not read a file. -/
def failureOf : IO.Error → ReadFailure
  | .noFileOrDirectory .. => .missing
  | .inappropriateType _ code _ => if isCode 20 code then .notDirectory else .isDirectory
  | .invalidArgument _ code details =>
    if isCode 36 code then .nameTooLong else .other s!"{details} (os error {code})"
  | .permissionDenied _ code details => .other s!"{details} (os error {code})"
  | e => .other (toString e)

/-- Reads a file of the system. -/
def readFile (path : String) : IO (Except ReadFailure String) := do
  match ← (IO.FS.readBinFile path).toBaseIO with
  | .ok bytes => return decodeText bytes
  | .error e => return .error (failureOf e)

/-- Reads all modules that can be reached from the given names. -/
partial def gather (directory : String) (names : List String) (lib : Library)
    (seen : List String) : IO Library := do
  match names with
  | [] => return lib
  | name :: others =>
    if seen.contains name then gather directory others lib seen
    else
      match ← readFile (modulePath directory name) with
      | .ok text =>
        gather directory (mentionedModules text ++ others) ((name, text) :: lib) (name :: seen)
      | .error _ => gather directory others lib (name :: seen)

/-- Prints a transcript and gives its exit code. -/
def finish (start : Nat) (t : Transcript) : IO UInt32 := do
  let now ← IO.monoNanosNow
  for piece in t.out do
    IO.print (piece.render (now - start))
  (← IO.getStdout).flush
  IO.eprint t.err
  return if t.ok then 0 else 1

end ThreadRegions.CommandLine

open ThreadRegions.CommandLine in
/-- Checks the file that the arguments name. -/
def main (args : List String) : IO UInt32 := do
  let start ← IO.monoNanosNow
  match Options.parse args with
  | .error message => finish start (refuse message)
  | .ok o =>
    let source ← readFile o.path
    let names := (source.toOption.map mentionedModules).getD []
    let lib ← gather (splitPath o.path).2 names [] []
    finish start (run o source lib)
