import ElfAnatomy.Identification
import ElfAnatomy.Region

/-!
# The file header

The first 64 bytes of a file: sixteen bytes of identification, then fourteen fields in the byte
order that the identification names.

* `FileHeader.parse` : the header at the start of a byte string; `FileHeader.encode` undoes it.
* `FileHeader.checkTables` : refuses a header whose tables have foreign entry sizes or do not lie
  in the file.

A header may leave the number of its sections or segments to the first section header.  Then only
that first section header is checked here, and the table once its length is known.
-/

namespace ElfAnatomy

/-- The kinds of object files. -/
inductive ObjectType
  | unspecified
  | relocatable
  | executable
  | sharedObject
  | core
  /-- A code of an operating system or processor, or one nobody assigned. -/
  | other (code : UInt16)
deriving DecidableEq, Repr

/-- The kind of object file that a code names. -/
def ObjectType.ofCode (code : UInt16) : ObjectType :=
  if code = 0 then unspecified
  else if code = 1 then relocatable
  else if code = 2 then executable
  else if code = 3 then sharedObject
  else if code = 4 then core
  else other code

/-- The header at the start of a file. -/
structure FileHeader where
  /-- The identification, as it stands in the file. -/
  ident : Vector UInt8 16
  /-- The byte order of all words of the file. -/
  byteOrder : ByteOrder
  type : UInt16
  machine : UInt16
  version : UInt32
  /-- The address where execution starts. -/
  entry : UInt64
  /-- Where the table of program headers starts. -/
  phoff : UInt64
  /-- Where the table of section headers starts. -/
  shoff : UInt64
  flags : UInt32
  ehsize : UInt16
  phentsize : UInt16
  phnum : UInt16
  shentsize : UInt16
  shnum : UInt16
  /-- The index of the section that holds the section names. -/
  shstrndx : UInt16
deriving DecidableEq, Repr

namespace FileHeader

/-- The number of bytes of a header. -/
def size : Nat := 64

/-- The number of segments that leaves the count to the first section header. -/
def deferredSegments : UInt16 := 0xffff

/-- The section index that leaves the index to the first section header. -/
def deferredIndex : UInt16 := 0xffff

/-- The size that entries of the program header table must declare. -/
def segmentEntrySize : UInt64 := 56

/-- The size that entries of the section header table must declare. -/
def sectionEntrySize : UInt64 := 64

/-- The identification version. -/
def identVersion (h : FileHeader) : UInt8 := h.ident[6]

/-- The operating system or convention the file is made for. -/
def osAbi (h : FileHeader) : UInt8 := h.ident[7]

/-- The version of that convention. -/
def abiVersion (h : FileHeader) : UInt8 := h.ident[8]

/-- The kind of object file. -/
def objectType (h : FileHeader) : ObjectType := .ofCode h.type

/-- The sixteen bytes of identification, if there are as many. -/
def ident? (bs : Bytes) : Option (Vector UInt8 16) :=
  if h : (bs.take 16).length = 16 then some ⟨(bs.take 16).toArray, by simpa using h⟩ else none

/-- The header in the first 64 bytes, with all words in the given byte order. -/
def fields? (order : ByteOrder) (bs : Bytes) : Option FileHeader := do
  return {
    ident := ← ident? bs
    byteOrder := order
    type := ← order.field? bs 16
    machine := ← order.field? bs 18
    version := ← order.field? bs 20
    entry := ← order.field? bs 24
    phoff := ← order.field? bs 32
    shoff := ← order.field? bs 40
    flags := ← order.field? bs 48
    ehsize := ← order.field? bs 52
    phentsize := ← order.field? bs 54
    phnum := ← order.field? bs 56
    shentsize := ← order.field? bs 58
    shnum := ← order.field? bs 60
    shstrndx := ← order.field? bs 62 }

/-- The bytes of a header. -/
def encode (h : FileHeader) : Bytes :=
  h.ident.toList ++ (h.byteOrder.encode h.type ++ (h.byteOrder.encode h.machine ++
    (h.byteOrder.encode h.version ++ (h.byteOrder.encode h.entry ++ (h.byteOrder.encode h.phoff ++
    (h.byteOrder.encode h.shoff ++ (h.byteOrder.encode h.flags ++ (h.byteOrder.encode h.ehsize ++
    (h.byteOrder.encode h.phentsize ++ (h.byteOrder.encode h.phnum ++
    (h.byteOrder.encode h.shentsize ++ (h.byteOrder.encode h.shnum ++
    h.byteOrder.encode h.shstrndx))))))))))))

/-- The header of a file whose signature and class have been checked. -/
def parseFields (bs : Bytes) : Except DecodeError FileHeader := do
  require (size ≤ bs.length) (.truncatedTable 0 64 bs.length)
  let order ← ByteOrder.ofByte (← inside bs[5]?)
  inside (fields? order bs)

/-- The header at the start of a byte string: first the signature, then the class, then whether
all 64 bytes are there, then the byte order. -/
def parse (bs : Bytes) : Except DecodeError FileHeader := do
  (← FileClass.ofStart bs).require64
  parseFields bs

/-- Refuses entries of another size than their records have. -/
def checkEntrySize (record : RecordKind) (expected : UInt64) (found : UInt16) :
    Except DecodeError Unit :=
  require (found.toUInt64 = expected) (.layoutMismatch record expected found.toUInt64)

/-- Refuses a program header table that does not fit; a deferred count leaves its end open. -/
def checkSegmentTable (h : FileHeader) (length : Nat) : Except DecodeError Unit :=
  if h.phnum = 0 then .ok ()
  else do
    checkEntrySize .programHeader segmentEntrySize h.phentsize
    if h.phnum = deferredSegments then .ok ()
    else (← Region.table h.phoff h.phnum.toUInt64 segmentEntrySize length).check length

/-- The header declares section headers, though perhaps not their number. -/
def hasSections (h : FileHeader) : Bool := h.shnum != 0 || h.shoff != 0

/-- Refuses a section header table that does not fit; a deferred count stands for one entry. -/
def checkSectionTable (h : FileHeader) (length : Nat) : Except DecodeError Unit :=
  if h.hasSections then do
    checkEntrySize .sectionHeader sectionEntrySize h.shentsize
    (← Region.table h.shoff (max h.shnum 1).toUInt64 sectionEntrySize length).check length
  else .ok ()

/-- Refuses a header whose tables do not fit into a file of `length` bytes. -/
def checkTables (h : FileHeader) (length : Nat) : Except DecodeError Unit := do
  h.checkSegmentTable length
  h.checkSectionTable length

/-! ### The layout of a header -/

open ByteOrder

theorem ident?_eq_some_iff {bs : Bytes} {v : Vector UInt8 16} :
    ident? bs = some v ↔ 16 ≤ bs.length ∧ v.toList = bs.take 16 := by
  unfold ident?
  split
  · rename_i h
    rw [List.length_take] at h
    have h16 : 16 ≤ bs.length := by omega
    simp only [Option.some.injEq, h16, true_and]
    constructor
    · rintro rfl; simp
    · intro hv
      apply Vector.toList_inj.1
      simp [hv]
  · rename_i h
    rw [List.length_take] at h
    simp only [reduceCtorEq, false_iff]
    omega

/-- The fields are read exactly where the bytes of the header stand. -/
theorem fields?_eq_some_iff {order : ByteOrder} {bs : Bytes} {h : FileHeader} :
    fields? order bs = some h ↔
      64 ≤ bs.length ∧ h.byteOrder = order ∧ h.encode = bs.take 64 := by
  constructor
  · intro hf
    obtain ⟨_, h0, hf⟩ := Option.bind_eq_some_iff.1 hf
    obtain ⟨_, h16, hf⟩ := Option.bind_eq_some_iff.1 hf
    obtain ⟨_, h18, hf⟩ := Option.bind_eq_some_iff.1 hf
    obtain ⟨_, h20, hf⟩ := Option.bind_eq_some_iff.1 hf
    obtain ⟨_, h24, hf⟩ := Option.bind_eq_some_iff.1 hf
    obtain ⟨_, h32, hf⟩ := Option.bind_eq_some_iff.1 hf
    obtain ⟨_, h40, hf⟩ := Option.bind_eq_some_iff.1 hf
    obtain ⟨_, h48, hf⟩ := Option.bind_eq_some_iff.1 hf
    obtain ⟨_, h52, hf⟩ := Option.bind_eq_some_iff.1 hf
    obtain ⟨_, h54, hf⟩ := Option.bind_eq_some_iff.1 hf
    obtain ⟨_, h56, hf⟩ := Option.bind_eq_some_iff.1 hf
    obtain ⟨_, h58, hf⟩ := Option.bind_eq_some_iff.1 hf
    obtain ⟨_, h60, hf⟩ := Option.bind_eq_some_iff.1 hf
    obtain ⟨_, h62, hf⟩ := Option.bind_eq_some_iff.1 hf
    cases Option.some.inj hf
    refine ⟨(Bytes.slice?_eq_some_iff.1 (field?_eq_some_iff.1 h62)).1, rfl, ?_⟩
    have e0 := (ident?_eq_some_iff.1 h0).2
    have e16 := take_of_field? h16
    have e18 := take_of_field? h18
    have e20 := take_of_field? h20
    have e24 := take_of_field? h24
    have e32 := take_of_field? h32
    have e40 := take_of_field? h40
    have e48 := take_of_field? h48
    have e52 := take_of_field? h52
    have e54 := take_of_field? h54
    have e56 := take_of_field? h56
    have e58 := take_of_field? h58
    have e60 := take_of_field? h60
    have e62 := take_of_field? h62
    simp only [width_uint16, width_uint32, width_uint64, Nat.reduceAdd] at *
    simp only [encode, e0, e16, e18, e20, e24, e32, e40, e48, e52, e54, e56, e58, e60, e62,
      List.append_assoc]
  · rintro ⟨hle, rfl, hb⟩
    rw [← List.take_append_drop 64 bs, ← hb]
    have hid : ident? (h.encode ++ bs.drop 64) = some h.ident :=
      ident?_eq_some_iff.2 (by simp [encode])
    simp only [fields?, hid]
    simp only [encode, List.append_assoc, field?_append_of_le, field?_encode, length_encode,
      Vector.length_toList, width_uint16, width_uint32, width_uint64, Nat.reduceLeDiff,
      Nat.reduceSub, Nat.le_refl, Nat.sub_self]
    rfl

theorem isSome_fields? (order : ByteOrder) {bs : Bytes} (h : 64 ≤ bs.length) :
    (fields? order bs).isSome := by
  have h0 : ident? bs = some ⟨(bs.take 16).toArray, by simp; omega⟩ := by
    rw [ident?, dif_pos (by simp; omega)]
  obtain ⟨_, h16⟩ := exists_field? UInt16 order bs 16 (by simp; omega)
  obtain ⟨_, h18⟩ := exists_field? UInt16 order bs 18 (by simp; omega)
  obtain ⟨_, h20⟩ := exists_field? UInt32 order bs 20 (by simp; omega)
  obtain ⟨_, h24⟩ := exists_field? UInt64 order bs 24 (by simp; omega)
  obtain ⟨_, h32⟩ := exists_field? UInt64 order bs 32 (by simp; omega)
  obtain ⟨_, h40⟩ := exists_field? UInt64 order bs 40 (by simp; omega)
  obtain ⟨_, h48⟩ := exists_field? UInt32 order bs 48 (by simp; omega)
  obtain ⟨_, h52⟩ := exists_field? UInt16 order bs 52 (by simp; omega)
  obtain ⟨_, h54⟩ := exists_field? UInt16 order bs 54 (by simp; omega)
  obtain ⟨_, h56⟩ := exists_field? UInt16 order bs 56 (by simp; omega)
  obtain ⟨_, h58⟩ := exists_field? UInt16 order bs 58 (by simp; omega)
  obtain ⟨_, h60⟩ := exists_field? UInt16 order bs 60 (by simp; omega)
  obtain ⟨_, h62⟩ := exists_field? UInt16 order bs 62 (by simp; omega)
  simp [fields?, h0, h16, h18, h20, h24, h32, h40, h48, h52, h54, h56, h58, h60, h62]

end FileHeader

end ElfAnatomy
