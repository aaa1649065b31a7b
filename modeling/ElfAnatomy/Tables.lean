import ElfAnatomy.Decoder
import ElfAnatomy.Table.Dynamic
import ElfAnatomy.Table.FileHeader
import ElfAnatomy.Table.Sections
import ElfAnatomy.Table.Segments
import ElfAnatomy.Views

/-!
# Tables of a decoded file

The selected views of a decoded file as text, in a fixed order and separated by blank lines.  Only
a full run has more to show than the file header.
-/

namespace ElfAnatomy

/-- The selected tables, each as a list of lines. -/
def Decoded.tables (decoded : Decoded) (views : Views) : List (List String) :=
  let header := if views.fileHeader then [Table.fileHeader decoded.fileHeader] else []
  match decoded.image? with
  | none => header
  | some image =>
    header
      ++ (if views.sections then [Table.sections image] else [])
      ++ (if views.segments then [Table.segments image] else [])
      ++ (if views.dynamic then [Table.dynamic image] else [])

/-- The text of the selected tables. -/
def Decoded.render (decoded : Decoded) (views : Views) : String :=
  "\n".intercalate ((decoded.tables views).map Lines.text)

end ElfAnatomy
