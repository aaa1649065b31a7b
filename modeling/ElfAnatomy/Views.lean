/-!
# Views

The parts of a decoded file that a table or a report can show.
-/

namespace ElfAnatomy

/-- Which parts are shown. -/
structure Views where
  fileHeader : Bool := false
  sections : Bool := false
  segments : Bool := false
  dynamic : Bool := false
deriving DecidableEq, Repr

/-- All parts. -/
def Views.all : Views := ⟨true, true, true, true⟩

/-- The file header alone. -/
def Views.headerOnly : Views := { fileHeader := true }

end ElfAnatomy
