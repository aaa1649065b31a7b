import ElfAnatomy.FileHeader
import ElfAnatomy.Plan

/-!
# Reading the file header

Two plans read the header.  `FileHeader.read` takes it apart at once; `FileHeader.readStaged` makes
the same checks one after another and notes the stages in between.
-/

namespace ElfAnatomy.FileHeader

/-- The header of a source, with its tables checked against the length. -/
def read : Plan FileHeader := do
  let start ← Plan.leading size
  let header ← parse start
  header.checkTables (← Plan.length)
  return header

/-- The header of a source, stage by stage: signature, class, fields and tables. -/
def readStaged : Plan FileHeader := do
  let start ← Plan.leading size
  checkSignature start
  Plan.reached .magicChecked
  (← FileClass.ofStart start).require64
  Plan.reached .classChecked
  let header ← parseFields start
  header.checkTables (← Plan.length)
  Plan.reached .headerDecoded
  return header

end ElfAnatomy.FileHeader
