import ElfAnatomy.Image
import ElfAnatomy.Names
import ElfAnatomy.Text.Column

/-!
# The dynamic section as a table

A title with the number of entries, the names of the columns, one row per entry, and the list of
needed libraries.  A row shows what its value means; the names of needed libraries are handed out
to their entries in order.
-/

namespace ElfAnatomy.Table

/-- The names of the columns. -/
def dynamicColumns : String := "  " ++ Column.left 18 "Tag" ++ " " ++ Column.left 20 "Type"
  ++ " Name/Value"

/-- The part of a row before its value. -/
def dynamicLead (e : DynamicEntry) : String :=
  "  " ++ Hex.wide 16 e.code.toUInt64.toNat ++ " "
    ++ Column.left 20 ("(" ++ Names.dynamicTag e.code ++ ")") ++ " "

/-- The value of an entry, given the next name of a needed library. -/
def dynamicValue (linkage : Linkage) (next : Option String) (e : DynamicEntry) : String :=
  match e.tag with
  | .needed =>
    match next with
    | some name => "Shared library: [" ++ name ++ "]"
    | none => Hex.number e.value.toNat
  | .soName => "Library soname: [" ++ linkage.soname.getD "" ++ "]"
  | .rPath => "Library rpath: [" ++ linkage.rpath.getD "" ++ "]"
  | .runPath => "Library runpath: [" ++ linkage.runpath.getD "" ++ "]"
  | .strSz => e.value.toNat.repr ++ " (bytes)"
  | _ => Hex.number e.value.toNat

/-- The rows of entries; each entry of a needed library takes the next name. -/
def dynamicRows (linkage : Linkage) : List String → List DynamicEntry → List String
  | _, [] => []
  | names, e :: es =>
    (dynamicLead e ++ dynamicValue linkage names.head? e) ::
      dynamicRows linkage (if e.tag = .needed then names.tail else names) es

/-- The lines about needed libraries. -/
def dependencyLines (image : Image) : List String :=
  if image.dependencies = [] then ["No shared library dependencies."]
  else "Shared library dependencies:" :: image.dependencies.map fun name => "  " ++ name

/-- The lines of the dynamic section. -/
def dynamic (image : Image) : List String :=
  match Linkage.section? image.sections with
  | none => ["There is no dynamic section in this file."]
  | some (_, s) =>
    ("Dynamic section at offset " ++ Hex.number s.offset.toNat ++ " contains "
        ++ image.linkage.entries.length.repr ++ " entries:") ::
      dynamicColumns :: dynamicRows image.linkage image.linkage.needed image.linkage.entries ++
      "" :: dependencyLines image

end ElfAnatomy.Table
