import ElfAnatomy.FileHeader
import ElfAnatomy.Plan
import ElfAnatomy.Section
import ElfAnatomy.StringTable

/-!
# Reading sections and their names

* `SectionHeader.contents` : the bytes of one section.
* `SectionTable.read` : all section headers.  A header that leaves a number to the first section
  header has that one read beforehand.
* `SectionTable.readNames` : the names of the sections, from the section the header points to.
-/

namespace ElfAnatomy

/-- The bytes of a section; one without bytes in the file has none. -/
def SectionHeader.contents (s : SectionHeader) : Plan Bytes :=
  if s.occupiesFile then Plan.read s.region else pure []

/-- All section headers, and the index of the section that holds their names. -/
structure SectionTable where
  headers : List SectionHeader
  namesIndex : UInt32
deriving DecidableEq, Repr

namespace SectionTable

/-- `count` section headers of a file. -/
def readHeaders (h : FileHeader) (count : UInt64) : Plan (List SectionHeader) :=
  Plan.table SectionHeader h.byteOrder h.shoff count h.shentsize.toUInt64

/-- The file header leaves a number to the first section header. -/
def defers (h : FileHeader) : Bool := h.shnum == 0 || h.shstrndx == FileHeader.deferredIndex

/-- The number of sections, given the first one where it is needed. -/
def count (h : FileHeader) (first? : Option SectionHeader) : UInt64 :=
  match first? with
  | some first => if h.shnum = 0 then first.size else h.shnum.toUInt64
  | none => h.shnum.toUInt64

/-- The index of the section that holds the names, given the first one where it is needed. -/
def index (h : FileHeader) (first? : Option SectionHeader) : UInt32 :=
  match first? with
  | some first => if h.shstrndx = FileHeader.deferredIndex then first.link else h.shstrndx.toUInt32
  | none => h.shstrndx.toUInt32

/-- The first section header, where it is needed. -/
def readFirst (h : FileHeader) : Plan (Option SectionHeader) :=
  if defers h then do return (← readHeaders h 1).head? else return none

/-- The section table of a file. -/
def read (h : FileHeader) : Plan SectionTable :=
  if h.hasSections then do
    let first? ← readFirst h
    let headers ← readHeaders h (count h first?)
    return ⟨headers, index h first?⟩
  else return ⟨[], h.shstrndx.toUInt32⟩

/-- The name of a section.  An inactive entry without a name has the empty one. -/
def nameOf (strings : StringTable) (s : SectionHeader) : Except DecodeError String :=
  if s.type = SectionType.null ∧ s.name = 0 then .ok "" else strings.resolve s.name.toUInt64

/-- The names of all sections, in table order. -/
def namesOf (strings : StringTable) (headers : List SectionHeader) :
    Except DecodeError (List String) :=
  headers.mapM (nameOf strings)

/-- Reads the names of all sections.  If no section holds them, they are all empty. -/
def readNames (t : SectionTable) : Plan (List String) :=
  if t.namesIndex = 0 then return t.headers.map fun _ => ""
  else
    match t.headers[t.namesIndex.toNat]? with
    | none => .done (.error (.badSectionIndex t.namesIndex.toNat t.headers.length))
    | some holder => do
      let bytes ← holder.contents
      namesOf ⟨bytes⟩ t.headers

end SectionTable

end ElfAnatomy
