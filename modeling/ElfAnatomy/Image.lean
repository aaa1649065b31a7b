import ElfAnatomy.Dynamic.Linkage
import ElfAnatomy.FileHeader.Reading
import ElfAnatomy.Segment
import ElfAnatomy.Source

/-!
# Images

An image is everything the library decodes from one file.

* `Image` : header, sections with their names, segments, linkage, interpreter and anomalies.
* `Image.read` : the plan that decodes it, stage by stage.
* `Image.sectionByName?`, `Image.sectionByType?`, `Image.loadSegments` : look-ups.
* `Image.sectionData`, `Image.sectionDataByName` : the bytes of a section, read afresh.
-/

namespace ElfAnatomy

/-- Everything decoded from one file. -/
structure Image where
  header : FileHeader
  sections : List SectionHeader
  /-- The names of the sections, in the same order. -/
  names : List String
  segments : List ProgramHeader
  linkage : Linkage
  /-- The path of the program that interprets the file. -/
  interpreter : Option String
  anomalies : List Anomaly
deriving DecidableEq, Repr

namespace Image

/-! ### Decoding -/

/-- The number of segments.  A deferred number stands in the first section header, if there is
one. -/
def segmentCount (h : FileHeader) (sections : List SectionHeader) : UInt64 :=
  match sections.head? with
  | some first =>
    if h.phnum = FileHeader.deferredSegments then first.info.toUInt64 else h.phnum.toUInt64
  | none => h.phnum.toUInt64

/-- The segment table of a file; an empty one needs no reading. -/
def readSegments (h : FileHeader) (sections : List SectionHeader) : Plan (List ProgramHeader) :=
  let count := segmentCount h sections
  if count = 0 then return []
  else Plan.table ProgramHeader h.byteOrder h.phoff count h.phentsize.toUInt64

/-- The interpreter path, from the first segment that holds one. -/
def readInterpreter (segments : List ProgramHeader) : Plan (Option String) :=
  match segments.find? fun p => p.type == SegmentType.interp with
  | none => return none
  | some p => do
    let bytes ← Plan.read ⟨p.offset, p.filesz⟩
    return some (← StringTable.resolve ⟨bytes⟩ 0)

/-- Decodes everything, stage by stage. -/
def read : Plan Image := do
  let header ← FileHeader.readStaged
  let table ← SectionTable.read header
  let segments ← readSegments header table.headers
  checkSections table.headers (← Plan.length)
  Plan.reached .tablesDecoded
  let names ← table.readNames
  Plan.reached .namesResolved
  let interpreter ← readInterpreter segments
  let linkage ← Linkage.read header.byteOrder table.headers
  Plan.reached .complete
  return {
    header, sections := table.headers, names, segments, linkage, interpreter,
    anomalies := Anomaly.ofSegments segments }

/-! ### Look-ups -/

/-- The name of the section at an index. -/
def sectionName? (image : Image) (index : Nat) : Option String := image.names[index]?

/-- The first section with a name, with its index. -/
def sectionByName? (image : Image) (name : String) : Option (Nat × SectionHeader) :=
  (image.names.findIdx? fun n => n == name).bind fun i =>
    image.sections[i]?.map fun s => (i, s)

/-- The first section of a type, with its index. -/
def sectionByType? (image : Image) (type : UInt32) : Option (Nat × SectionHeader) :=
  firstOfType? image.sections type

/-- The segments that are mapped into memory. -/
def loadSegments (image : Image) : List ProgramHeader :=
  image.segments.filter fun p => p.type == SegmentType.load

/-- The names of needed libraries, in file order. -/
def dependencies (image : Image) : List String := image.linkage.needed

/-! ### Section bytes -/

/-- The bytes of the section at an index, read from a device as it is now. -/
def sectionData (image : Image) (d : Device) (index : Nat) : Except DecodeError Bytes × Device :=
  match image.sections[index]? with
  | none => (.error (.badSectionIndex index image.sections.length), d)
  | some s =>
    match Source.attach d with
    | (.error e, d) => (.error e, d)
    | (.ok source, _) =>
      let (result, source) := s.contents.perform source
      (result, source.device)

/-- The bytes of the first section with a name, or `none` without touching the device. -/
def sectionDataByName (image : Image) (d : Device) (name : String) :
    Except DecodeError (Option Bytes) × Device :=
  match image.sectionByName? name with
  | none => (.ok none, d)
  | some (index, _) =>
    let (result, d) := image.sectionData d index
    (result.map some, d)

end Image

end ElfAnatomy
