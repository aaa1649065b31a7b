import ElfAnatomy.Record

/-!
# Segments

A program header describes one segment: the part of the file that a loader maps, or some
information for it.  `ProgramHeader` is the record, 56 bytes in the file; a segment with more bytes
in the file than in memory is *suspicious*, and `Anomaly.ofSegments` lists these.
-/

namespace ElfAnatomy

namespace SegmentType

/-- A part of the file that is mapped into memory. -/
def load : UInt32 := 1

/-- The path of the program that interprets the file. -/
def interp : UInt32 := 3

end SegmentType

namespace SegmentFlag

def execute : UInt32 := 0x1
def write : UInt32 := 0x2
def read : UInt32 := 0x4

end SegmentFlag

/-- A program header. -/
structure ProgramHeader where
  type : UInt32
  flags : UInt32
  /-- Where the bytes start in the file. -/
  offset : UInt64
  vaddr : UInt64
  paddr : UInt64
  /-- The number of bytes in the file. -/
  filesz : UInt64
  /-- The number of bytes in memory. -/
  memsz : UInt64
  align : UInt64
deriving DecidableEq, Repr

namespace ProgramHeader

/-- The program header in the first 56 bytes. -/
def parse? (order : ByteOrder) (bs : Bytes) : Option ProgramHeader := do
  return {
    type := ← order.field? bs 0
    flags := ← order.field? bs 4
    offset := ← order.field? bs 8
    vaddr := ← order.field? bs 16
    paddr := ← order.field? bs 24
    filesz := ← order.field? bs 32
    memsz := ← order.field? bs 40
    align := ← order.field? bs 48 }

/-- The bytes of a program header. -/
def encode (order : ByteOrder) (p : ProgramHeader) : Bytes :=
  order.encode p.type ++ (order.encode p.flags ++ (order.encode p.offset ++
    (order.encode p.vaddr ++ (order.encode p.paddr ++ (order.encode p.filesz ++
    (order.encode p.memsz ++ order.encode p.align))))))

instance : Record ProgramHeader := ⟨56, .programHeader, parse?, encode⟩

/-- The segment has more bytes in the file than in memory. -/
def suspicious (p : ProgramHeader) : Bool := p.memsz < p.filesz

end ProgramHeader

/-- Something odd that does not prevent decoding: a segment with more bytes in the file than in
memory. -/
structure Anomaly where
  /-- The index of the segment. -/
  index : Nat
  filesz : UInt64
  memsz : UInt64
deriving DecidableEq, Repr

namespace Anomaly

/-- The wording of an anomaly. -/
def message (a : Anomaly) : String :=
  "segment " ++ a.index.repr ++ ": file size " ++ Hex.number a.filesz.toNat
    ++ " exceeds memory size " ++ Hex.number a.memsz.toNat

/-- The anomalies of a table of segments, in table order. -/
def ofSegments (segments : List ProgramHeader) : List Anomaly :=
  (segments.zipIdx.filter fun p => p.1.suspicious).map fun p => ⟨p.2, p.1.filesz, p.1.memsz⟩

end Anomaly

/-! ### The layout of a record -/

namespace ProgramHeader

open ByteOrder

/-- A record is read exactly where its bytes stand. -/
theorem parse?_eq_some_iff {order : ByteOrder} {bs : Bytes} {r : ProgramHeader} :
    parse? order bs = some r ↔ 56 ≤ bs.length ∧ r.encode order = bs.take 56 := by
  constructor
  · intro h
    obtain ⟨_, h0, h⟩ := Option.bind_eq_some_iff.1 h
    obtain ⟨_, h4, h⟩ := Option.bind_eq_some_iff.1 h
    obtain ⟨_, h8, h⟩ := Option.bind_eq_some_iff.1 h
    obtain ⟨_, h16, h⟩ := Option.bind_eq_some_iff.1 h
    obtain ⟨_, h24, h⟩ := Option.bind_eq_some_iff.1 h
    obtain ⟨_, h32, h⟩ := Option.bind_eq_some_iff.1 h
    obtain ⟨_, h40, h⟩ := Option.bind_eq_some_iff.1 h
    obtain ⟨_, h48, h⟩ := Option.bind_eq_some_iff.1 h
    cases Option.some.inj h
    refine ⟨(Bytes.slice?_eq_some_iff.1 (field?_eq_some_iff.1 h48)).1, ?_⟩
    have e0 := take_of_field? h0
    have e4 := take_of_field? h4
    have e8 := take_of_field? h8
    have e16 := take_of_field? h16
    have e24 := take_of_field? h24
    have e32 := take_of_field? h32
    have e40 := take_of_field? h40
    have e48 := take_of_field? h48
    simp only [width_uint64, width_uint32, Nat.reduceAdd, List.take_zero, List.nil_append] at *
    simp only [ProgramHeader.encode, e0, e4, e8, e16, e24, e32, e40, e48, List.append_assoc]
  · rintro ⟨hle, h⟩
    rw [← List.take_append_drop 56 bs, ← h]
    simp only [parse?, encode, List.append_assoc, field?_append_of_le, field?_encode,
      length_encode, width_uint32, width_uint64, Nat.reduceLeDiff, Nat.reduceSub, Nat.le_refl,
      Nat.sub_self]
    rfl

theorem isSome_parse? (order : ByteOrder) {bs : Bytes} (h : 56 ≤ bs.length) :
    (parse? order bs).isSome := by
  obtain ⟨_, h0⟩ := exists_field? UInt32 order bs 0 (by simp; omega)
  obtain ⟨_, h4⟩ := exists_field? UInt32 order bs 4 (by simp; omega)
  obtain ⟨_, h8⟩ := exists_field? UInt64 order bs 8 (by simp; omega)
  obtain ⟨_, h16⟩ := exists_field? UInt64 order bs 16 (by simp; omega)
  obtain ⟨_, h24⟩ := exists_field? UInt64 order bs 24 (by simp; omega)
  obtain ⟨_, h32⟩ := exists_field? UInt64 order bs 32 (by simp; omega)
  obtain ⟨_, h40⟩ := exists_field? UInt64 order bs 40 (by simp; omega)
  obtain ⟨_, h48⟩ := exists_field? UInt64 order bs 48 (by simp; omega)
  simp [ProgramHeader.parse?, h0, h4, h8, h16, h24, h32, h40, h48]

instance : LawfulRecord ProgramHeader :=
  .of_parse? (by decide) (fun order r => by simp [Record.encode, Record.size, ProgramHeader.encode])
    (fun order _ h => isSome_parse? order h) fun _ _ _ => parse?_eq_some_iff

end ProgramHeader

end ElfAnatomy
