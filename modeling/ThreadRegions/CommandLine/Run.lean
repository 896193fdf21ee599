import ThreadRegions.Check.Walk
import ThreadRegions.CommandLine.FileTree
import ThreadRegions.Diagnostic.Render
import ThreadRegions.Import
import ThreadRegions.Scope.Listing

/-!
# The command line

What the program does for its arguments, up to reading files and printing.

## Main Definitions

* `Options.parse`: the meaning of the arguments
* `Transcript`: what is printed, and whether all went well
* `run`: the program
-/

namespace ThreadRegions.CommandLine

/-- How the program is called. -/
def usage : String := "usage: snc <file.sn> [-v|-vv] [--dump-symbols] [--tokens]"

/-- What the arguments ask for. -/
structure Options where
  /-- The file to check. -/
  path : String
  /-- How much of the journal is shown. -/
  verbosity : Verbosity
  /-- Whether the symbol table is listed. -/
  dumpSymbols : Bool
  /-- Whether the tokens are listed. -/
  dumpTokens : Bool
  deriving DecidableEq, Repr

namespace Options

/-- What has been asked for before any argument is seen, with no file yet. -/
def initial : Options := ⟨"", some .warn, false, false⟩

/-- The meaning of the arguments, where `path` is the file if it has been seen. -/
def parseFrom (o : Options) (path : Option String) : List String → Except String Options
  | [] =>
    match path with
    | some path => .ok { o with path := path }
    | none => .error "no input file"
  | arg :: others =>
    if arg = "-v" then parseFrom { o with verbosity := some .debug } path others
    else if arg = "-vv" then parseFrom { o with verbosity := some .trace } path others
    else if arg = "--dump-symbols" then parseFrom { o with dumpSymbols := true } path others
    else if arg = "--tokens" then parseFrom { o with dumpTokens := true } path others
    else if arg.startsWith "-" then .error s!"unknown flag '{arg}'"
    else if path.isNone then parseFrom o (some arg) others
    else .error s!"unexpected argument '{arg}'"

/-- The meaning of the arguments. -/
def parse (args : List String) : Except String Options := parseFrom .initial none args

end Options

/-- The name of a file and the directory it is in. -/
def splitPath (path : String) : String × String :=
  let parts := pathParts path
  let name := parts.getLastD ""
  let directory := String.intercalate "/" parts.dropLast
  (name, if directory = "" && path.startsWith "/" then "/" else directory)

/-- The path of a file in a directory. -/
def joinPath (directory file : String) : String :=
  if directory = "" || file.startsWith "/" then file
  else if directory.endsWith "/" then directory ++ file
  else directory ++ "/" ++ file

/-- The path of the file that holds a module, for a program in the given directory. -/
def modulePath (directory module : String) : String := joinPath directory (moduleFileName module)

/-- A piece of what is printed. -/
inductive Output where
  | text (s : String)
  /-- A line that ends in the time that something took. -/
  | elapsed (label : String)
  deriving DecidableEq, Repr

/-- What the program prints, and whether all went well. -/
structure Transcript where
  /-- What goes to the standard output. -/
  out : List Output
  /-- What goes to the standard error. -/
  err : String
  /-- Whether all went well. -/
  ok : Bool
  deriving Repr

/-- The text of journal lines. -/
def journalText (j : Journal) (v : Verbosity) : String :=
  String.join ((j.shown v v).map (· ++ "\n"))

/-- An error with the line that it points to, which may be in an imported module. -/
def showError (file source : String) (lib : Library) (d : Diagnostic) : String :=
  if d.position.file = file then d.render source
  else d.render ((lib.fileSource? d.position.file).getD "")

/-- The end of the program: what the checker has to say about a module whose imports are
resolved. -/
def runCheck (o : Options) (source : String) (lib : Library) (m : Module)
    (before : List Output) (errBefore : String) : Transcript :=
  let (s, _) := checkModule defaultSuggestionDistance m
  let out := before ++ [.elapsed "Type checked in "] ++
    (if o.dumpSymbols then [.text s.table.listing] else [])
  let err := errBefore ++ journalText s.journal o.verbosity
  if s.accepted then ⟨out ++ [.elapsed "Total time: "], err, true⟩
  else
    ⟨out,
      err ++ String.join (s.errors.map (showError m.file source lib)) ++
        s!"{s.errors.length} error(s) found\n",
      false⟩

/-- The program for a file with the given text, with the modules that can be imported. -/
def runSource (o : Options) (source : String) (lib : Library) : Transcript :=
  let file := (splitPath o.path).1
  match tokenize source file with
  | .error d => ⟨[], d.render source, false⟩
  | .ok tokens =>
    let out := Output.elapsed "Tokenized in " ::
      (if o.dumpTokens then tokens.map fun t => .text (t.listing ++ "\n") else [])
    match (Grammar.parse tokens file).result with
    | .error d => ⟨out, d.render source, false⟩
    | .ok m =>
      let (imports, resolved) := resolveImports lib m.statements
      let err := journalText imports.journal o.verbosity
      match resolved with
      | .error d => ⟨out, err ++ showError file source lib d, false⟩
      | .ok statements =>
        runCheck o source lib { m with statements := statements }
          (out ++ [.elapsed "Parsed in "]) err

/-- The program, with the outcome of reading its file. -/
def run (o : Options) (source : Except ReadFailure String) (lib : Library) : Transcript :=
  match source with
  | .error e => ⟨[], s!"cannot read {o.path}: {e.message}\n", false⟩
  | .ok source => runSource o source lib

/-- What is printed for arguments without a meaning. -/
def refuse (message : String) : Transcript := ⟨[], s!"{message}\n{usage}\n", false⟩

/-- The modules that a text imports, as far as it can be read. -/
def mentionedModules (text : String) : List String :=
  match readModule "" text with
  | .ok statements => importedModules statements
  | .error _ => []

/-- The modules that any file of a tree imports, for a program in the given directory. -/
def libraryOf (t : FileTree) (directory : String) : Library :=
  let names := t.flatMap fun (_, bytes) =>
    match decodeText bytes with
    | .ok text => mentionedModules text
    | .error _ => []
  names.filterMap fun name =>
    match t.read (modulePath directory name) with
    | .ok text => some (name, text)
    | .error _ => none

/-- The program on a tree of files. -/
def runOn (t : FileTree) (args : List String) : Transcript :=
  match Options.parse args with
  | .error message => refuse message
  | .ok o => run o (t.read o.path) (libraryOf t (splitPath o.path).2)

/-- The decimal places of `value / 10 ^ digits`, without zeros at the end. -/
def placesText (digits value : Nat) : String :=
  let places := toString value
  let padded := String.ofList (List.replicate (digits - places.length) '0') ++ places
  let kept := (padded.toList.reverse.dropWhile (· = '0')).reverse
  if kept.isEmpty then "" else "." ++ String.ofList kept

/-- A time in the largest unit that it is at least one of. -/
def elapsedText (nanos : Nat) : String :=
  if 1000000000 ≤ nanos then
    s!"{nanos / 1000000000}{placesText 9 (nanos % 1000000000)}s"
  else if 1000000 ≤ nanos then s!"{nanos / 1000000}{placesText 6 (nanos % 1000000)}ms"
  else if 1000 ≤ nanos then s!"{nanos / 1000}{placesText 3 (nanos % 1000)}µs"
  else s!"{nanos}ns"

/-- A piece of output, with the time to print. -/
def Output.render (nanos : Nat) : Output → String
  | .text s => s
  | .elapsed label => label ++ elapsedText nanos ++ "\n"

end ThreadRegions.CommandLine
