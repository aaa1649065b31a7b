import ElfAnatomy.Image
import ElfAnatomy.Names
import ElfAnatomy.Text.Column

/-!
# The sections as a table

A title, the names of the columns, one row per section, and a key to the flag letters.
-/

namespace ElfAnatomy.Table

/-- The names of the columns. -/
def sectionColumns : String :=
  "  [Nr] " ++ Column.left 17 "Name" ++ " " ++ Column.left 15 "Type" ++ " "
    ++ Column.left 16 "Address" ++ " " ++ Column.left 8 "Offset" ++ " " ++ Column.left 16 "Size"
    ++ " " ++ Column.left 16 "EntSize" ++ " " ++ Column.right 5 "Flags" ++ " "
    ++ Column.right 4 "Link" ++ " " ++ Column.right 4 "Info" ++ " " ++ Column.right 5 "Align"

/-- The row of a section. -/
def sectionRow (index : Nat) (s : SectionHeader) (name : String) : String :=
  "  [" ++ Column.right 2 index.repr ++ "] " ++ Column.left 17 name ++ " "
    ++ Column.left 15 (Names.sectionType s.type) ++ " " ++ Hex.padded 16 s.addr.toNat ++ " "
    ++ Hex.padded 8 s.offset.toNat ++ " " ++ Hex.padded 16 s.size.toNat ++ " "
    ++ Hex.padded 16 s.entsize.toNat ++ " " ++ Column.right 5 (Names.sectionFlags s.flags) ++ " "
    ++ Column.right 4 s.link.toNat.repr ++ " " ++ Column.right 4 s.info.toNat.repr ++ " "
    ++ Column.right 5 s.addralign.toNat.repr

/-- The rows of all sections. -/
def sectionRows (image : Image) : List String :=
  (image.sections.zip image.names).zipIdx.map fun p => sectionRow p.2 p.1.1 p.1.2

/-- The key to the flag letters. -/
def sectionKey : List String :=
  ["Key to Flags:",
    "  W (write), A (alloc), X (execute), M (merge), S (strings), I (info),",
    "  L (link order), O (extra OS processing required), G (group), T (TLS),",
    "  C (compressed), x (unknown)"]

/-- The lines of the section table. -/
def sections (image : Image) : List String :=
  if image.sections = [] then ["There are no sections in this file."]
  else "Section Headers:" :: sectionColumns :: sectionRows image ++ sectionKey

end ElfAnatomy.Table
