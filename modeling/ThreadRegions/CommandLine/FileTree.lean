/-!
# A tree of files

Files by their path from a directory, and how a path leads to one of them.

## Main Definitions

* `ReadFailure`: why a file cannot be read
* `FileTree`: files by path
* `Place`: where a path leads to
* `FileTree.read`: the text of a file

## Design Notes

A path is followed from left to right, and the first part that cannot be followed decides how it
fails.  The directory that is looked at has others above it, up to the root, of which nothing is
known but that they are directories.
-/

namespace ThreadRegions

/-- Why a file cannot be read as a text. -/
inductive ReadFailure where
  | missing
  | notDirectory
  | isDirectory
  | nameTooLong
  | notText
  /-- A reason that the system gives in its own words. -/
  | other (message : String)
  deriving DecidableEq, Repr

/-- The words for a failure. -/
def ReadFailure.message : ReadFailure → String
  | missing => "No such file or directory (os error 2)"
  | notDirectory => "Not a directory (os error 20)"
  | isDirectory => "Is a directory (os error 21)"
  | nameTooLong => "File name too long (os error 36)"
  | notText => "stream did not contain valid UTF-8"
  | other message => message

/-- The parts of a path between its slashes. -/
def pathParts (path : String) : List String := path.splitOn "/"

/-- Number of bytes of the longest name that a directory can hold. -/
def longestName : Nat := 255

/-- Number of bytes of the longest path that can be followed. -/
def longestPath : Nat := 4095

/-- The text that the bytes of a file stand for. -/
def decodeText (bytes : ByteArray) : Except ReadFailure String :=
  match String.fromUTF8? bytes with
  | some text => .ok text
  | none => .error .notText

/-- Files by the parts of their path from the directory that is looked at. -/
abbrev FileTree := List (List String × ByteArray)

/-- Where a path leads to. -/
inductive Place where
  /-- A directory above the one that is looked at. -/
  | outside
  /-- A place by the parts of its path from the directory that is looked at. -/
  | inside (parts : List String)
  deriving DecidableEq, Repr

/-- The directory that a place is in.  The one above all others is in itself. -/
def Place.parent : Place → Place
  | outside => outside
  | inside [] => outside
  | inside parts => inside parts.dropLast

namespace FileTree

/-- The tree of the given files. -/
def ofFiles (files : List (String × ByteArray)) : FileTree :=
  files.map fun (path, bytes) => ((pathParts path).filter fun p => p ≠ "" && p ≠ ".", bytes)

/-- The bytes of the file at a place. -/
def file? (t : FileTree) : Place → Option ByteArray
  | .outside => none
  | .inside parts => t.lookup parts

/-- Whether a place is a directory: it is above the tree, its root, or on the way to a file. -/
def isDirectory (t : FileTree) : Place → Bool
  | .outside => true
  | .inside parts =>
    parts.isEmpty || t.any fun (path, _) => parts.isPrefixOf path && parts ≠ path

/-- Where the parts of a path lead to from a place. -/
def walk (t : FileTree) (here : Place) : List String → Except ReadFailure Place
  | [] => .ok here
  | part :: others =>
    if !t.isDirectory here then
      .error (if (t.file? here).isSome then .notDirectory else .missing)
    else if part = "" || part = "." then t.walk here others
    else if part = ".." then t.walk here.parent others
    else if longestName < part.utf8ByteSize then .error .nameTooLong
    else
      match here with
      | .outside => .error .missing
      | .inside parts => t.walk (.inside (parts ++ [part])) others

/-- The text of the file that a path leads to. -/
def read (t : FileTree) (path : String) : Except ReadFailure String :=
  if path = "" then .error .missing
  else if longestPath < path.utf8ByteSize then .error .nameTooLong
  else
    match t.walk (if path.startsWith "/" then .outside else .inside []) (pathParts path) with
    | .error e => .error e
    | .ok place =>
      match t.file? place with
      | some bytes => decodeText bytes
      | none => .error (if t.isDirectory place then .isDirectory else .missing)

end FileTree

end ThreadRegions
