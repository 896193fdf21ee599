/-!
# The journal

What the library tells about its own work, for those who want to follow it.

## Main Definitions

* `Level`: how detailed a note is
* `Note`: a line of the journal
* `Journal.shown`: the lines that a reader with given interests sees

## Design Notes

Every note is kept, whoever may want to read it.  What is done never depends on who is listening.
-/

namespace ThreadRegions

/-- How detailed a note is, the least detailed first. -/
inductive Level where
  | error | warn | info | debug | trace
  deriving DecidableEq, Repr

namespace Level

/-- The place of a level among the others. -/
def rank : Level → Nat
  | error => 1
  | warn => 2
  | info => 3
  | debug => 4
  | trace => 5

/-- The name of a level. -/
def name : Level → String
  | error => "ERROR"
  | warn => "WARN"
  | info => "INFO"
  | debug => "DEBUG"
  | trace => "TRACE"

end Level

/-- The most detailed level that is wanted, if any. -/
abbrev Verbosity := Option Level

/-- Whether notes of the given level are wanted. -/
def Verbosity.admits (v : Verbosity) (level : Level) : Bool :=
  v.any fun most => level.rank ≤ most.rank

/-- A line of the journal. -/
structure Note where
  /-- How detailed it is. -/
  level : Level
  /-- Whether it is by the checker, which can be silenced on its own. -/
  byChecker : Bool
  /-- What it says. -/
  text : String
  deriving DecidableEq, Repr

/-- The notes in the order in which they were made. -/
abbrev Journal := Array Note

namespace Journal

/-- Adds a note that is not by the checker. -/
def note (j : Journal) (level : Level) (text : String) : Journal := j.push ⟨level, false, text⟩

/-- Adds a note by the checker. -/
def checkerNote (j : Journal) (level : Level) (text : String) : Journal :=
  j.push ⟨level, true, text⟩

/-- The lines that are seen, where `all` limits all notes and `checker` those by the checker. -/
def shown (j : Journal) (all checker : Verbosity) : List String :=
  (j.toList.filter fun n => all.admits n.level && (!n.byChecker || checker.admits n.level)).map
    fun n => s!"[{n.level.name}] {n.text}"

end Journal

end ThreadRegions
