/-!
# Stages of a decoding run

A run goes through seven stages in order; `Stage.rank` numbers them.  After a failed run the stage
is the last one the run completed.
-/

namespace ElfAnatomy

/-- How far a run has come. -/
inductive Stage
  /-- Nothing has been read. -/
  | unopened
  /-- The signature is there. -/
  | magicChecked
  /-- The file is a 64-bit file. -/
  | classChecked
  /-- The header is decoded, and the tables it declares fit into the file. -/
  | headerDecoded
  /-- Sections and segments are decoded. -/
  | tablesDecoded
  /-- The sections have their names. -/
  | namesResolved
  /-- Everything is decoded. -/
  | complete
deriving DecidableEq, Repr

namespace Stage

/-- All stages, in order. -/
def all : List Stage :=
  [unopened, magicChecked, classChecked, headerDecoded, tablesDecoded, namesResolved, complete]

/-- The number of stages before a stage. -/
def rank : Stage → Nat
  | unopened => 0
  | magicChecked => 1
  | classChecked => 2
  | headerDecoded => 3
  | tablesDecoded => 4
  | namesResolved => 5
  | complete => 6

/-- The name of a stage. -/
def label : Stage → String
  | unopened => "unopened"
  | magicChecked => "magic checked"
  | classChecked => "class checked"
  | headerDecoded => "header decoded"
  | tablesDecoded => "tables decoded"
  | namesResolved => "names resolved"
  | complete => "complete"

instance : LE Stage := ⟨fun s t => s.rank ≤ t.rank⟩
instance : LT Stage := ⟨fun s t => s.rank < t.rank⟩

instance (s t : Stage) : Decidable (s ≤ t) := inferInstanceAs (Decidable (s.rank ≤ t.rank))
instance (s t : Stage) : Decidable (s < t) := inferInstanceAs (Decidable (s.rank < t.rank))

end Stage

end ElfAnatomy
