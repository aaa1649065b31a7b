import ElfAnatomy.Image
import ElfAnatomy.Names
import ElfAnatomy.Text.Column

/-!
# The segments as a table

A title, the names of the columns, and one row per segment.  A suspicious segment is marked, and
the row of an interpreter segment is followed by the interpreter's path.
-/

namespace ElfAnatomy.Table

/-- The names of the columns. -/
def segmentColumns : String :=
  "  " ++ Column.left 14 "Type" ++ " " ++ Column.left 18 "Offset" ++ " "
    ++ Column.left 18 "VirtAddr" ++ " " ++ Column.left 18 "PhysAddr" ++ " "
    ++ Column.left 18 "FileSiz" ++ " " ++ Column.left 18 "MemSiz" ++ " " ++ Column.left 3 "Flg"
    ++ " Align"

/-- What marks the row of a suspicious segment. -/
def suspiciousMark : String := "  [suspicious: file size exceeds memory size]"

/-- The row of a segment. -/
def segmentRow (p : ProgramHeader) : String :=
  "  " ++ Column.left 14 (Names.segmentType p.type) ++ " " ++ Hex.wide 16 p.offset.toNat ++ " "
    ++ Hex.wide 16 p.vaddr.toNat ++ " " ++ Hex.wide 16 p.paddr.toNat ++ " "
    ++ Hex.wide 16 p.filesz.toNat ++ " " ++ Hex.wide 16 p.memsz.toNat ++ " "
    ++ Names.segmentFlags p.flags ++ " " ++ Hex.number p.align.toNat
    ++ if p.suspicious then suspiciousMark else ""

/-- The line that shows the path of the interpreter. -/
def interpreterLine (path : String) : String :=
  "      [Requesting program interpreter: " ++ path ++ "]"

/-- The lines of a segment. -/
def segmentLines (interpreter : Option String) (p : ProgramHeader) : List String :=
  segmentRow p ::
    if p.type = SegmentType.interp then (interpreter.map interpreterLine).toList else []

/-- The lines of the segment table. -/
def segments (image : Image) : List String :=
  if image.segments = [] then ["There are no program headers in this file."]
  else "Program Headers:" :: segmentColumns ::
    image.segments.flatMap (segmentLines image.interpreter)

end ElfAnatomy.Table
