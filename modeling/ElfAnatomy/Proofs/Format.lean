import Mathlib.Data.List.Basic
import Mathlib.Data.List.Forall2
import ElfAnatomy.Image

/-!
# What stands in a file

The format of a file, said about its bytes alone: neither the order of the reads nor that of the
checks plays a part here.  A record is known by the bytes it is written as, and a string by its
bytes and the NUL after them.

* `Record.StandAt`, `FileHeader.StandsIn` : records at their place in the file.
* `SectionCount`, `NamesIndex`, `SegmentCount` : the numbers that the header gives, or leaves to
  the first section header.
* `TablesIn` : the section headers and program headers of a file.
* `StringTable.Holds` : a string in its table.
* `NamesIn`, `InterpreterIn`, `LinkageIn` : the strings that sections, segments and dynamic entries
  refer to.
* `ImageIn` : everything together.

`ElfAnatomy.Proofs.Reading` shows that decoding finds just what stands in the file.
-/

namespace ElfAnatomy

/-! ### Records -/

/-- The records stand one after another in the file, from `offset` on. -/
def Record.StandAt {α : Type} [Record α] (order : ByteOrder) (data : Bytes) (offset : Nat)
    (records : List α) : Prop :=
  data.slice? offset (size α * records.length) = some (encodeAll order records)

/-- The file starts with the header: the identification names a 64-bit file and a byte order, and
in that order the first 64 bytes are those of the header. -/
structure FileHeader.StandsIn (h : FileHeader) (data : Bytes) : Prop where
  long : 64 ≤ data.length
  signature : data.take 4 = [0x7f, 0x45, 0x4c, 0x46]
  fileClass : data[4]? = some 2
  byteOrder : data[5]? = some h.byteOrder.byte
  bytes : data.take 64 = h.encode

/-! ### Numbers that may be deferred -/

/-- The number of section headers. -/
inductive SectionCount (data : Bytes) (h : FileHeader) : Nat → Prop
  /-- There is no table. -/
  | absent (hnum : h.shnum = 0) (hoff : h.shoff = 0) : SectionCount data h 0
  /-- The file header gives the number. -/
  | declared (hnum : h.shnum ≠ 0) : SectionCount data h h.shnum.toNat
  /-- The first section header gives the number, as its size. -/
  | deferred (hnum : h.shnum = 0) (hoff : h.shoff ≠ 0) (first : SectionHeader)
      (hfirst : Record.StandAt h.byteOrder data h.shoff.toNat [first]) :
      SectionCount data h first.size.toNat

/-- The index of the section that holds the section names. -/
inductive NamesIndex (data : Bytes) (h : FileHeader) : Nat → Prop
  /-- The file header gives the index. -/
  | declared (hx : h.shstrndx ≠ 0xffff ∨ h.shnum = 0 ∧ h.shoff = 0) :
      NamesIndex data h h.shstrndx.toNat
  /-- The first section header gives the index, as its link. -/
  | deferred (hx : h.shstrndx = 0xffff) (htable : h.shnum ≠ 0 ∨ h.shoff ≠ 0)
      (first : SectionHeader) (hfirst : Record.StandAt h.byteOrder data h.shoff.toNat [first]) :
      NamesIndex data h first.link.toNat

/-- The number of program headers. -/
inductive SegmentCount (h : FileHeader) (sections : List SectionHeader) : Nat → Prop
  /-- The file header gives the number. -/
  | declared (hx : h.phnum ≠ 0xffff ∨ sections = []) : SegmentCount h sections h.phnum.toNat
  /-- The first section header gives the number, as its info. -/
  | deferred (hx : h.phnum = 0xffff) (first : SectionHeader) (rest : List SectionHeader)
      (hs : sections = first :: rest) : SegmentCount h sections first.info.toNat

/-- The section headers and program headers of a file: as many as there should be, in the places
that the file header gives. -/
structure TablesIn (data : Bytes) (h : FileHeader) (sections : List SectionHeader)
    (segments : List ProgramHeader) : Prop where
  sectionCount : SectionCount data h sections.length
  sectionsAt : Record.StandAt h.byteOrder data h.shoff.toNat sections
  segmentCount : SegmentCount h sections segments.length
  segmentsAt : segments = [] ∨ Record.StandAt h.byteOrder data h.phoff.toNat segments

/-! ### Sections -/

/-- The types with a link, by their numbers. -/
theorem SectionType.mem_linked_iff {type : UInt32} :
    type ∈ linked ↔
      type.toNat ∈ [2, 4, 5, 6, 9, 11, 18, 0x6ffffff6, 0x6ffffffd, 0x6ffffffe, 0x6fffffff] := by
  have hnumbers : List.Perm (linked.map UInt32.toNat)
      [2, 4, 5, 6, 9, 11, 18, 0x6ffffff6, 0x6ffffffd, 0x6ffffffe, 0x6fffffff] := by decide
  rw [← hnumbers.mem_iff, List.mem_map_of_injective fun _ _ => UInt32.toNat_inj.1]

namespace SectionHeader

/-- The section links inside a table of `count` sections, and its bytes lie in a file of `length`
bytes, as far as it has a link and bytes. -/
structure Sound (s : SectionHeader) (count length : Nat) : Prop where
  link : s.type ∈ SectionType.linked → s.link.toNat < count
  region : s.type ≠ SectionType.null → s.type ≠ SectionType.nobits →
    s.offset.toNat + s.size.toNat ≤ length

/-- The conditions by the numbers that the types have in the format. -/
theorem sound_iff {s : SectionHeader} {count length : Nat} :
    s.Sound count length ↔
      (s.type.toNat ∈ [2, 4, 5, 6, 9, 11, 18, 0x6ffffff6, 0x6ffffffd, 0x6ffffffe, 0x6fffffff] →
        s.link.toNat < count) ∧
      (s.type.toNat ≠ 0 → s.type.toNat ≠ 8 → s.offset.toNat + s.size.toNat ≤ length) := by
  have hnull : s.type ≠ SectionType.null ↔ s.type.toNat ≠ 0 := not_congr UInt32.toNat_inj.symm
  have hnobits : s.type ≠ SectionType.nobits ↔ s.type.toNat ≠ 8 := not_congr UInt32.toNat_inj.symm
  rw [← SectionType.mem_linked_iff, ← hnull, ← hnobits]
  exact ⟨fun h => ⟨h.link, h.region⟩, fun h => ⟨h.1, h.2⟩⟩

/-- The bytes of the section in the file. -/
def bytesIn (s : SectionHeader) (data : Bytes) : Bytes :=
  if s.occupiesFile then (data.drop s.offset.toNat).take s.size.toNat else []

end SectionHeader

/-! ### Strings -/

/-- The bytes of `text` and a NUL stand in the table at `offset`, and there is no NUL among the
bytes. -/
def StringTable.Holds (t : StringTable) (offset : Nat) (text : String) : Prop :=
  0 ∉ Utf8.encode text ∧
    ∃ before after, before.length = offset ∧
      t.bytes = before ++ (Utf8.encode text ++ 0 :: after)

/-- The name of a section, given the table of section names. -/
inductive NameOf (t : StringTable) (s : SectionHeader) : String → Prop
  /-- An inactive entry without a name. -/
  | empty (htype : s.type = SectionType.null) (hname : s.name = 0) : NameOf t s ""
  | held (text : String) (hs : ¬ (s.type = SectionType.null ∧ s.name = 0))
      (htext : t.Holds s.name.toNat text) : NameOf t s text

/-- The names of all sections; the one with index `k` holds them. -/
inductive NamesIn (data : Bytes) (sections : List SectionHeader) (k : Nat) :
    List String → Prop
  /-- No section holds names. -/
  | absent (hk : k = 0) : NamesIn data sections k (sections.map fun _ => "")
  | held (hk : k ≠ 0) (holder : SectionHeader) (hh : sections[k]? = some holder)
      (names : List String)
      (hnames : List.Forall₂ (NameOf ⟨holder.bytesIn data⟩) sections names) :
      NamesIn data sections k names

/-- The path of the interpreter, from the first segment that holds one. -/
inductive InterpreterIn (data : Bytes) (segments : List ProgramHeader) : Option String → Prop
  | absent (h : ∀ p ∈ segments, p.type ≠ SegmentType.interp) : InterpreterIn data segments none
  | held (p : ProgramHeader)
      (hp : segments.find? (fun p => p.type == SegmentType.interp) = some p)
      (hin : p.offset.toNat + p.filesz.toNat ≤ data.length) (path : String)
      (hpath : StringTable.Holds ⟨(data.drop p.offset.toNat).take p.filesz.toNat⟩ 0 path) :
      InterpreterIn data segments (some path)

/-! ### Dynamic linkage -/

/-- All entries of a dynamic section, those after the first null entry included. -/
structure EntriesIn (data : Bytes) (order : ByteOrder) (s : SectionHeader)
    (entries : List DynamicEntry) : Prop where
  entrySize : s.entsize = 0 ∨ s.entsize = 16
  count : s.size.toNat = 16 * entries.length
  entries : Record.StandAt order data s.offset.toNat entries

/-- The first section with dynamic entries. -/
def dynamicSection? (sections : List SectionHeader) : Option SectionHeader :=
  sections.find? fun s => s.type == SectionType.dynamic

/-- The section of the file that starts at the address. -/
def startingAt? (sections : List SectionHeader) (addr : UInt64) : Option SectionHeader :=
  sections.find? fun s => s.occupiesFile ∧ s.addr = addr ∧ s.addr ≠ 0

/-- The first section of the file whose memory contains the address. -/
def containing? (sections : List SectionHeader) (addr : UInt64) : Option SectionHeader :=
  sections.find? fun s =>
    s.occupiesFile ∧ s.addr ≠ 0 ∧ s.addr.toNat ≤ addr.toNat ∧
      addr.toNat < s.addr.toNat + s.size.toNat

/-- The tags with a meaning, by their numbers. -/
theorem DynamicTag.ofCode_eq_iff (code : Int64) :
    (ofCode code = .null ↔ code = 0) ∧ (ofCode code = .needed ↔ code = 1) ∧
      (ofCode code = .strTab ↔ code = 5) ∧ (ofCode code = .strSz ↔ code = 10) ∧
      (ofCode code = .soName ↔ code = 14) ∧ (ofCode code = .rPath ↔ code = 15) ∧
      (ofCode code = .runPath ↔ code = 29) := by
  unfold ofCode
  split_ifs <;> simp_all

/-- The value of a tag comes from the first entry with that tag. -/
theorem Linkage.valueOf?_eq_some_iff {entries : List DynamicEntry} {tag : DynamicTag}
    {value : UInt64} :
    valueOf? entries tag = some value ↔ ∃ before e later, entries = before ++ e :: later ∧
      e.tag = tag ∧ e.value = value ∧ ∀ e' ∈ before, e'.tag ≠ tag := by
  simp only [valueOf?, Option.map_eq_some_iff, List.find?_eq_some_iff_append, beq_iff_eq,
    Bool.not_eq_true', beq_eq_false_iff_ne]
  constructor
  · rintro ⟨e, ⟨htag, before, later, hsplit, hbefore⟩, hvalue⟩
    exact ⟨before, e, later, hsplit, htag, hvalue, hbefore⟩
  · rintro ⟨before, e, later, hsplit, htag, hvalue, hbefore⟩
    exact ⟨e, ⟨htag, before, later, hsplit, hbefore⟩, hvalue⟩

/-- The string table that the entries refer to: it starts at the address that the first entry of
its kind gives, and ends where its section ends, or where the entries say it does. -/
def StringsIn (data : Bytes) (sections : List SectionHeader) (entries : List DynamicEntry)
    (t : StringTable) : Prop :=
  ∃ addr s, Linkage.valueOf? entries .strTab = some addr ∧
    (startingAt? sections addr <|> containing? sections addr) = some s ∧
    t.bytes =
      match Linkage.valueOf? entries .strSz with
      | some size => ((s.bytesIn data).drop (addr.toNat - s.addr.toNat)).take size.toNat
      | none => (s.bytesIn data).drop (addr.toNat - s.addr.toNat)

/-- What the dynamic section of a file says. -/
inductive LinkageIn (data : Bytes) (order : ByteOrder) (sections : List SectionHeader) :
    Linkage → Prop
  | absent (h : dynamicSection? sections = none) : LinkageIn data order sections {}
  /-- No entry refers to a string. -/
  | bare (s : SectionHeader) (hs : dynamicSection? sections = some s)
      (all : List DynamicEntry) (hall : EntriesIn data order s all)
      (hbare : ∀ e ∈ DynamicEntry.upToNull all, e.tag.namesString = false) :
      LinkageIn data order sections { entries := DynamicEntry.upToNull all }
  | linked (s : SectionHeader) (hs : dynamicSection? sections = some s)
      (all : List DynamicEntry) (hall : EntriesIn data order s all)
      (hlinked : ∃ e ∈ DynamicEntry.upToNull all, e.tag.namesString = true)
      (t : StringTable) (ht : StringsIn data sections (DynamicEntry.upToNull all) t)
      (strings : List (DynamicTag × String))
      (hstrings : List.Forall₂ (fun e p => p.1 = e.tag ∧ t.Holds e.value.toNat p.2)
        ((DynamicEntry.upToNull all).filter fun e => e.tag.namesString) strings) :
      LinkageIn data order sections (.ofStrings (DynamicEntry.upToNull all) strings)

/-! ### Files -/

/-- The header stands in the file, and the tables that it declares can lie there: their entries
have the right size, and as far as the header gives their number, there is room for them. -/
structure HeaderIn (data : Bytes) (h : FileHeader) : Prop where
  stands : h.StandsIn data
  segments : h.phnum = 0 ∨
    h.phentsize = 56 ∧
      (h.phnum = 0xffff ∨ h.phoff.toNat + 56 * h.phnum.toNat ≤ data.length)
  sections : h.shnum = 0 ∧ h.shoff = 0 ∨
    h.shentsize = 64 ∧ h.shoff.toNat + 64 * max h.shnum.toNat 1 ≤ data.length

/-- The image shows what stands in the file. -/
structure ImageIn (data : Bytes) (image : Image) : Prop where
  header : HeaderIn data image.header
  tables : TablesIn data image.header image.sections image.segments
  sound : ∀ s ∈ image.sections, s.Sound image.sections.length data.length
  names : ∃ k, NamesIndex data image.header k ∧ NamesIn data image.sections k image.names
  interpreter : InterpreterIn data image.segments image.interpreter
  linkage : LinkageIn data image.header.byteOrder image.sections image.linkage
  anomalies : image.anomalies = Anomaly.ofSegments image.segments

end ElfAnatomy
