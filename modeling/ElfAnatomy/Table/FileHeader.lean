import ElfAnatomy.Names
import ElfAnatomy.Text.Column

/-!
# The file header as a table

One line for the identification bytes, then one line per field with a label and a value.
-/

namespace ElfAnatomy.Table

/-- A line with a label and a value. -/
def field (label value : String) : String := "  " ++ Column.left 35 (label ++ ":") ++ value

/-- The identification bytes. -/
def identLine (h : FileHeader) : String :=
  "  Magic:  " ++ String.join (h.ident.toList.map fun byte => " " ++ Hex.padded 2 byte.toNat)

/-- The name of a byte order. -/
def byteOrderName : ByteOrder → String
  | .little => "2's complement, little endian"
  | .big => "2's complement, big endian"

/-- The identification version, which is marked if it is the current one. -/
def identVersion (version : UInt8) : String :=
  version.toNat.repr ++ if version = 1 then " (current)" else ""

/-- The lines of a file header. -/
def fileHeader (h : FileHeader) : List String :=
  ["ELF Header:",
    identLine h,
    field "Class" "ELF64",
    field "Data" (byteOrderName h.byteOrder),
    field "Version" (identVersion h.identVersion),
    field "OS/ABI" (Names.osAbi h.osAbi),
    field "ABI Version" h.abiVersion.toNat.repr,
    field "Type" (Names.objectType h.objectType),
    field "Machine" (Names.machine h.machine),
    field "Version" (Hex.number h.version.toNat),
    field "Entry point address" (Hex.number h.entry.toNat),
    field "Start of program headers" (h.phoff.toNat.repr ++ " (bytes into file)"),
    field "Start of section headers" (h.shoff.toNat.repr ++ " (bytes into file)"),
    field "Flags" (Hex.number h.flags.toNat),
    field "Size of this header" (h.ehsize.toNat.repr ++ " (bytes)"),
    field "Size of program headers" (h.phentsize.toNat.repr ++ " (bytes)"),
    field "Number of program headers" h.phnum.toNat.repr,
    field "Size of section headers" (h.shentsize.toNat.repr ++ " (bytes)"),
    field "Number of section headers" h.shnum.toNat.repr,
    field "Section header string table index" h.shstrndx.toNat.repr]

end ElfAnatomy.Table
