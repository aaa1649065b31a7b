import ElfAnatomy.Record
import ElfAnatomy.Region

/-!
# Sections

A section header describes one section of a file: what it holds, where its bytes are in the file,
and which addresses they get in memory.

* `SectionHeader` : the record, 64 bytes in the file.
* `SectionHeader.occupiesFile`, `SectionHeader.containsAddr` : where a section lives.
* `checkSections` : refuses a table with a link or a region that leads outside.
* `firstOfType?` : the first section of a type.
* `locateAddress?` : the section of the file that holds an address.
-/

namespace ElfAnatomy

namespace SectionType

/-- An inactive entry. -/
def null : UInt32 := 0
def symtab : UInt32 := 2
def rela : UInt32 := 4
def hash : UInt32 := 5
def dynamic : UInt32 := 6
/-- A section without bytes in the file. -/
def nobits : UInt32 := 8
def rel : UInt32 := 9
def dynsym : UInt32 := 11
def symtabShndx : UInt32 := 18
def gnuHash : UInt32 := 0x6ffffff6
def gnuVerdef : UInt32 := 0x6ffffffd
def gnuVerneed : UInt32 := 0x6ffffffe
def gnuVersym : UInt32 := 0x6fffffff

/-- The types whose link field is a section index. -/
def linked : List UInt32 :=
  [symtab, dynsym, dynamic, rel, rela, hash, gnuHash, symtabShndx, gnuVerdef, gnuVerneed, gnuVersym]

end SectionType

namespace SectionFlag

/-- The bytes can be written to in memory. -/
def write : UInt64 := 0x1
/-- The section takes up memory. -/
def alloc : UInt64 := 0x2
/-- The bytes are machine instructions. -/
def execute : UInt64 := 0x4
def merge : UInt64 := 0x10
def strings : UInt64 := 0x20
/-- The info field is a section index. -/
def infoLink : UInt64 := 0x40
def linkOrder : UInt64 := 0x80
def osNonconforming : UInt64 := 0x100
def group : UInt64 := 0x200
/-- The data belongs to a thread. -/
def threadLocal : UInt64 := 0x400
def compressed : UInt64 := 0x800

/-- All flags that have a name. -/
def all : UInt64 :=
  write ||| alloc ||| execute ||| merge ||| strings ||| infoLink ||| linkOrder ||| osNonconforming
    ||| group ||| threadLocal ||| compressed

end SectionFlag

/-- A section header. -/
structure SectionHeader where
  /-- Where the name starts in the section name table. -/
  name : UInt32
  type : UInt32
  flags : UInt64
  /-- The address in memory, or zero. -/
  addr : UInt64
  /-- Where the bytes start in the file. -/
  offset : UInt64
  size : UInt64
  link : UInt32
  info : UInt32
  addralign : UInt64
  entsize : UInt64
deriving DecidableEq, Repr

namespace SectionHeader

/-- The section header in the first 64 bytes. -/
def parse? (order : ByteOrder) (bs : Bytes) : Option SectionHeader := do
  return {
    name := ← order.field? bs 0
    type := ← order.field? bs 4
    flags := ← order.field? bs 8
    addr := ← order.field? bs 16
    offset := ← order.field? bs 24
    size := ← order.field? bs 32
    link := ← order.field? bs 40
    info := ← order.field? bs 44
    addralign := ← order.field? bs 48
    entsize := ← order.field? bs 56 }

/-- The bytes of a section header. -/
def encode (order : ByteOrder) (s : SectionHeader) : Bytes :=
  order.encode s.name ++ (order.encode s.type ++ (order.encode s.flags ++ (order.encode s.addr ++
    (order.encode s.offset ++ (order.encode s.size ++ (order.encode s.link ++
    (order.encode s.info ++ (order.encode s.addralign ++ order.encode s.entsize))))))))

instance : Record SectionHeader := ⟨64, .sectionHeader, parse?, encode⟩

/-- The bytes of the section are in the file. -/
def occupiesFile (s : SectionHeader) : Bool :=
  s.type != SectionType.nobits && s.type != SectionType.null

/-- The link field is a section index. -/
def hasSectionLink (s : SectionHeader) : Bool := SectionType.linked.contains s.type

/-- The address lies in the memory of the section. -/
def containsAddr (s : SectionHeader) (addr : UInt64) : Bool :=
  s.addr != 0 && s.addr ≤ addr && addr - s.addr < s.size

/-- Where the bytes of the section are in the file. -/
def region (s : SectionHeader) : Region := ⟨s.offset, s.size⟩

/-- Refuses a section that links outside a table of `count` sections, or whose bytes do not lie in
a file of `length` bytes. -/
def check (s : SectionHeader) (count length : Nat) : Except DecodeError Unit := do
  require (s.hasSectionLink → s.link.toNat < count) (.badSectionIndex s.link.toNat count)
  if s.occupiesFile then s.region.check length

end SectionHeader

/-- Refuses a section table as soon as one of its sections is refused. -/
def checkSections (sections : List SectionHeader) (length : Nat) : Except DecodeError Unit :=
  let count := sections.length
  sections.forM fun s => s.check count length

/-- The first section of a type, with its index. -/
def firstOfType? (sections : List SectionHeader) (type : UInt32) : Option (Nat × SectionHeader) :=
  (sections.zipIdx.find? fun p => p.1.type == type).map fun p => (p.2, p.1)

/-- Where an address is: the section that holds it, and its offset in that section. -/
structure Location where
  /-- The index of the section. -/
  index : Nat
  header : SectionHeader
  offset : UInt64
deriving DecidableEq, Repr

/-- The section of the file that holds the address.  A section that starts at the address goes
before one that merely contains it. -/
def locateAddress? (sections : List SectionHeader) (addr : UInt64) : Option Location :=
  let inFile := sections.zipIdx.filter fun p => p.1.occupiesFile
  ((inFile.find? fun p => p.1.addr == addr && p.1.addr != 0) <|>
    inFile.find? fun p => p.1.containsAddr addr).map fun p => ⟨p.2, p.1, addr - p.1.addr⟩

/-! ### The layout of a record -/

namespace SectionHeader

open ByteOrder

/-- A record is read exactly where its bytes stand. -/
theorem parse?_eq_some_iff {order : ByteOrder} {bs : Bytes} {r : SectionHeader} :
    parse? order bs = some r ↔ 64 ≤ bs.length ∧ r.encode order = bs.take 64 := by
  constructor
  · intro h
    obtain ⟨_, h0, h⟩ := Option.bind_eq_some_iff.1 h
    obtain ⟨_, h4, h⟩ := Option.bind_eq_some_iff.1 h
    obtain ⟨_, h8, h⟩ := Option.bind_eq_some_iff.1 h
    obtain ⟨_, h16, h⟩ := Option.bind_eq_some_iff.1 h
    obtain ⟨_, h24, h⟩ := Option.bind_eq_some_iff.1 h
    obtain ⟨_, h32, h⟩ := Option.bind_eq_some_iff.1 h
    obtain ⟨_, h40, h⟩ := Option.bind_eq_some_iff.1 h
    obtain ⟨_, h44, h⟩ := Option.bind_eq_some_iff.1 h
    obtain ⟨_, h48, h⟩ := Option.bind_eq_some_iff.1 h
    obtain ⟨_, h56, h⟩ := Option.bind_eq_some_iff.1 h
    cases Option.some.inj h
    refine ⟨(Bytes.slice?_eq_some_iff.1 (field?_eq_some_iff.1 h56)).1, ?_⟩
    have e0 := take_of_field? h0
    have e4 := take_of_field? h4
    have e8 := take_of_field? h8
    have e16 := take_of_field? h16
    have e24 := take_of_field? h24
    have e32 := take_of_field? h32
    have e40 := take_of_field? h40
    have e44 := take_of_field? h44
    have e48 := take_of_field? h48
    have e56 := take_of_field? h56
    simp only [width_uint64, width_uint32, Nat.reduceAdd, List.take_zero, List.nil_append] at *
    simp only [SectionHeader.encode, e0, e4, e8, e16, e24, e32, e40, e44, e48, e56,
      List.append_assoc]
  · rintro ⟨hle, h⟩
    rw [← List.take_append_drop 64 bs, ← h]
    simp only [parse?, encode, List.append_assoc, field?_append_of_le, field?_encode,
      length_encode, width_uint32, width_uint64, Nat.reduceLeDiff, Nat.reduceSub, Nat.le_refl,
      Nat.sub_self]
    rfl

theorem isSome_parse? (order : ByteOrder) {bs : Bytes} (h : 64 ≤ bs.length) :
    (parse? order bs).isSome := by
  obtain ⟨_, h0⟩ := exists_field? UInt32 order bs 0 (by simp; omega)
  obtain ⟨_, h4⟩ := exists_field? UInt32 order bs 4 (by simp; omega)
  obtain ⟨_, h8⟩ := exists_field? UInt64 order bs 8 (by simp; omega)
  obtain ⟨_, h16⟩ := exists_field? UInt64 order bs 16 (by simp; omega)
  obtain ⟨_, h24⟩ := exists_field? UInt64 order bs 24 (by simp; omega)
  obtain ⟨_, h32⟩ := exists_field? UInt64 order bs 32 (by simp; omega)
  obtain ⟨_, h40⟩ := exists_field? UInt32 order bs 40 (by simp; omega)
  obtain ⟨_, h44⟩ := exists_field? UInt32 order bs 44 (by simp; omega)
  obtain ⟨_, h48⟩ := exists_field? UInt64 order bs 48 (by simp; omega)
  obtain ⟨_, h56⟩ := exists_field? UInt64 order bs 56 (by simp; omega)
  simp [SectionHeader.parse?, h0, h4, h8, h16, h24, h32, h40, h44, h48, h56]

instance : LawfulRecord SectionHeader :=
  .of_parse? (by decide) (fun order r => by simp [Record.encode, Record.size, SectionHeader.encode])
    (fun order _ h => isSome_parse? order h) fun _ _ _ => parse?_eq_some_iff

end SectionHeader

end ElfAnatomy
