import ElfAnatomy.Decoder
import ElfAnatomy.Json
import ElfAnatomy.Names
import ElfAnatomy.Views

/-!
# The report

One JSON document about a decoded file.  The path and the file header are always there; sections,
segments and linkage only after a full run and if their view is selected; the interpreter and the
anomalies whenever there are any.

* `Report.ofDecoded` : the document.
* `Report.writtenBy` : its text, from any writer of documents.
* `Report.text` : its text over several lines.
-/

namespace ElfAnatomy.Report

/-- A 64-bit number. -/
def word (n : UInt64) : Json := .nat n.toNat

/-- A field that is left out if there is no value. -/
def optional (name : String) : Option Json → List (String × Json)
  | some value => [(name, value)]
  | none => []

/-- The name of a byte order. -/
def byteOrder : ByteOrder → String
  | .little => "little"
  | .big => "big"

/-- The file header. -/
def header (h : FileHeader) : Json :=
  .obj [
    ("class", .str "ELF64"),
    ("endian", .str (byteOrder h.byteOrder)),
    ("os_abi", .nat h.osAbi.toNat),
    ("abi_version", .nat h.abiVersion.toNat),
    ("type", .nat h.type.toNat),
    ("type_name", .str (Names.objectType h.objectType)),
    ("machine", .nat h.machine.toNat),
    ("machine_name", .str (Names.machine h.machine)),
    ("version", .nat h.version.toNat),
    ("entry", word h.entry),
    ("phoff", word h.phoff),
    ("shoff", word h.shoff),
    ("flags", .nat h.flags.toNat),
    ("phnum", .nat h.phnum.toNat),
    ("shnum", .nat h.shnum.toNat),
    ("shstrndx", .nat h.shstrndx.toNat)]

/-- A section with its index and name. -/
def sectionEntry (index : Nat) (s : SectionHeader) (name : String) : Json :=
  .obj [
    ("index", .nat index),
    ("name", .str name),
    ("type", .str (Names.sectionType s.type)),
    ("flags", .str (Names.sectionFlags s.flags)),
    ("addr", word s.addr),
    ("offset", word s.offset),
    ("size", word s.size),
    ("link", .nat s.link.toNat),
    ("info", .nat s.info.toNat),
    ("align", word s.addralign),
    ("entsize", word s.entsize)]

/-- All sections, in table order. -/
def sections (image : Image) : Json :=
  .arr ((image.sections.zip image.names).zipIdx.map fun p => sectionEntry p.2 p.1.1 p.1.2)

/-- A segment. -/
def segmentEntry (p : ProgramHeader) : Json :=
  .obj [
    ("type", .str (Names.segmentType p.type)),
    ("flags", .str (Names.segmentFlagsClosed p.flags)),
    ("offset", word p.offset),
    ("vaddr", word p.vaddr),
    ("paddr", word p.paddr),
    ("filesz", word p.filesz),
    ("memsz", word p.memsz),
    ("align", word p.align),
    ("suspicious", .bool p.suspicious)]

/-- All segments, in table order. -/
def segments (image : Image) : Json := .arr (image.segments.map segmentEntry)

/-- A dynamic entry. -/
def dynamicEntry (e : DynamicEntry) : Json :=
  .obj [("tag", .str (Names.dynamicTag e.code)), ("value", word e.value)]

/-- The linkage. -/
def linkage (l : Linkage) : Json :=
  .obj (("needed", .arr (l.needed.map .str))
    :: optional "soname" (l.soname.map .str)
    ++ optional "rpath" (l.rpath.map .str)
    ++ optional "runpath" (l.runpath.map .str)
    ++ [("entries", .arr (l.entries.map dynamicEntry))])

/-- The anomalies, unless there are none. -/
def anomalies (image : Image) : Option Json :=
  if image.anomalies = [] then none
  else some (.arr (image.anomalies.map fun a => .str a.message))

/-- The part of the report that only a full run gives. -/
def imageFields (image : Image) (views : Views) : List (String × Json) :=
  (if views.sections then [("sections", sections image)] else [])
    ++ (if views.segments then [("segments", segments image)] else [])
    ++ (if views.dynamic then [("dynamic", linkage image.linkage)] else [])
    ++ optional "interpreter" (image.interpreter.map .str)
    ++ optional "anomalies" (anomalies image)

/-- The report on the file at a path. -/
def ofDecoded (path : String) (decoded : Decoded) (views : Views) : Json :=
  .obj (("path", .str path) :: ("header", header decoded.fileHeader)
    :: match decoded.image? with
      | none => []
      | some image => imageFields image views)

/-- The text of the report, from a writer of documents. -/
def writtenBy (write : Json → String) (path : String) (decoded : Decoded) (views : Views) :
    String :=
  write (ofDecoded path decoded views)

/-- The text of the report. -/
def text (path : String) (decoded : Decoded) (views : Views) : String :=
  writtenBy Json.pretty path decoded views

end ElfAnatomy.Report
