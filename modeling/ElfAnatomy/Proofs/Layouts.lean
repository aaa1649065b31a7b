import Mathlib.Algebra.Group.Int.Defs
import ElfAnatomy.Proofs.Header

/-!
# Layouts, field by field

The format lays a record out as a table of fields: where each field starts, how many bytes it has,
and which number it holds.  The byte order decides in which direction the digits of these numbers
are written, and nothing else.

* `ByteOrder.digit`, `Field` : a byte of a number, and a field of a record.
* `SectionHeader.layout`, `ProgramHeader.layout`, `DynamicEntry.layout`, `FileHeader.layout` : the
  tables.
* `Field.Partition`, `Field.Written` : each byte belongs to exactly one field, and is the digit
  that this field has there.
* `Field.Gapless` : fields that follow one another, from which both properties are derived.
* `FileHeader.parse_eq_ok_iff` : a header is parsed exactly where it stands.
* `layouts_one_to_one` : **records and blocks of bytes correspond one to one**, as their tables say,
  in either byte order, and so do file headers and the starts of files.
-/

namespace ElfAnatomy

/-! ### Digits -/

namespace ByteOrder

/-- The byte at place `j` of the number `n` written in `width` bytes: its base-256 digit with the
weight that the byte order gives to that place. -/
def digit (order : ByteOrder) (width n j : Nat) : UInt8 :=
  match order with
  | little => .ofNat (n / 256 ^ j)
  | big => .ofNat (n / 256 ^ (width - 1 - j))

theorem getElem?_ascendingDigits {width n j : Nat} (hj : j < width) :
    (ascendingDigits width n)[j]? = some (.ofNat (n / 256 ^ j)) := by
  induction width generalizing n j with
  | zero => exact absurd hj (Nat.not_lt_zero j)
  | succ width ih =>
    cases j with
    | zero => simp [ascendingDigits]
    | succ j =>
      rw [ascendingDigits, List.getElem?_cons_succ, ih (Nat.lt_of_succ_lt_succ hj),
        Nat.div_div_eq_div_mul, Nat.pow_succ']

theorem getElem?_digits (order : ByteOrder) {width n j : Nat} (hj : j < width) :
    (order.digits width n)[j]? = some (order.digit width n j) := by
  cases order with
  | little => exact getElem?_ascendingDigits hj
  | big =>
    have hlen := length_ascendingDigits width n
    rw [digits, List.getElem?_reverse (by omega), hlen, getElem?_ascendingDigits (by omega)]
    rfl

end ByteOrder

/-! ### Fields -/

/-- A field of a record. -/
structure Field (α : Type) where
  /-- Where the field starts in the record. -/
  offset : Nat
  /-- The number of its bytes. -/
  width : Nat
  /-- The number that it holds; a signed one as its two's complement. -/
  number : α → Nat

namespace Field

variable {α : Type} {fields : List (Field α)} {start stop size : Nat}

/-- The byte at `i` belongs to the field. -/
def Covers (f : Field α) (i : Nat) : Prop := f.offset ≤ i ∧ i < f.offset + f.width

/-- The fields share out the bytes of a record: each byte belongs to exactly one of them. -/
structure Partition (fields : List (Field α)) (size : Nat) : Prop where
  unique : ∀ i < size, ∃! f, f ∈ fields ∧ f.Covers i
  inside : ∀ f ∈ fields, f.offset + f.width ≤ size

/-- The bytes are those of a record that is written field by field. -/
structure Written (fields : List (Field α)) (size : Nat) (order : ByteOrder) (a : α)
    (bs : Bytes) : Prop where
  length : bs.length = size
  digit : ∀ f ∈ fields, ∀ j < f.width,
    bs[f.offset + j]? = some (order.digit f.width (f.number a) j)

/-- The first field begins at `start`, every other one where the field before it ends, and the last
one ends at `stop`. -/
def Gapless : Nat → List (Field α) → Nat → Prop
  | start, [], stop => start = stop
  | start, f :: fields, stop => f.offset = start ∧ Gapless (start + f.width) fields stop

instance decidableGapless : (start : Nat) → (fields : List (Field α)) → (stop : Nat) →
    Decidable (Gapless start fields stop)
  | start, [], stop => inferInstanceAs (Decidable (start = stop))
  | start, f :: fields, stop =>
    have := decidableGapless (start + f.width) fields stop
    inferInstanceAs (Decidable (f.offset = start ∧ Gapless (start + f.width) fields stop))

/-- The bytes of a field. -/
def bytes (order : ByteOrder) (a : α) (f : Field α) : Bytes := order.digits f.width (f.number a)

namespace Gapless

theorem le (h : Gapless start fields stop) : start ≤ stop := by
  induction fields generalizing start with
  | nil => exact Nat.le_of_eq h
  | cons f fields ih => exact Nat.le_trans (Nat.le_add_right _ _) (ih h.2)

theorem bounds (h : Gapless start fields stop) :
    ∀ f ∈ fields, start ≤ f.offset ∧ f.offset + f.width ≤ stop := by
  induction fields generalizing start with
  | nil => nofun
  | cons f fields ih =>
    obtain ⟨rfl, hrest⟩ := h
    refine List.forall_mem_cons.2 ⟨⟨Nat.le_refl _, hrest.le⟩, fun g hg => ?_⟩
    obtain ⟨hstart, hstop⟩ := ih hrest g hg
    exact ⟨Nat.le_trans (Nat.le_add_right _ _) hstart, hstop⟩

theorem unique (h : Gapless start fields stop) {i : Nat} (hi : start ≤ i) (hlt : i < stop) :
    ∃! f, f ∈ fields ∧ f.Covers i := by
  induction fields generalizing start with
  | nil =>
    cases h
    omega
  | cons f fields ih =>
    obtain ⟨rfl, hrest⟩ := h
    by_cases hf : i < f.offset + f.width
    · -- the later fields start past this byte
      refine ⟨f, ⟨List.mem_cons_self, hi, hf⟩, ?_⟩
      rintro g ⟨hg, hcover⟩
      rcases List.mem_cons.1 hg with rfl | hg
      · rfl
      · have := (hrest.bounds g hg).1
        have := hcover.1
        omega
    · obtain ⟨g, ⟨hg, hcover⟩, hunique⟩ := ih hrest (Nat.not_lt.1 hf)
      refine ⟨g, ⟨List.mem_cons_of_mem _ hg, hcover⟩, ?_⟩
      rintro g' ⟨hg', hcover'⟩
      rcases List.mem_cons.1 hg' with rfl | hg'
      · exact absurd hcover'.2 hf
      · exact hunique g' ⟨hg', hcover'⟩

theorem partition (h : Gapless 0 fields size) : Partition fields size where
  unique i hi := h.unique (Nat.zero_le i) hi
  inside f hf := (h.bounds f hf).2

/-- Fields that are written one after another, right after the bytes before them. -/
theorem written_append (h : Gapless start fields stop) (order : ByteOrder) (a : α)
    {before : Bytes} (hbefore : before.length = start) :
    Written fields stop order a (before ++ fields.flatMap (bytes order a)) := by
  -- on the fields: what is written of this one stands before the others
  induction fields generalizing start before with
  | nil =>
    cases h
    exact ⟨by simpa using hbefore, nofun⟩
  | cons f fields ih =>
    obtain ⟨rfl, hrest⟩ := h
    have hbytes : (bytes order a f).length = f.width := order.length_digits _ _
    have hlen : (before ++ bytes order a f).length = f.offset + f.width := by
      rw [List.length_append, hbefore, hbytes]
    have hothers := ih hrest hlen
    rw [List.append_assoc, ← List.flatMap_cons] at hothers
    refine ⟨hothers.length, List.forall_mem_cons.2 ⟨fun j hj => ?_, hothers.digit⟩⟩
    rw [List.flatMap_cons, ← List.append_assoc, List.getElem?_append_left (by omega), ← hbefore,
      List.getElem?_append_right (Nat.le_add_right _ _), Nat.add_sub_cancel_left]
    exact order.getElem?_digits hj

theorem written (h : Gapless 0 fields size) (order : ByteOrder) (a : α) :
    Written fields size order a (fields.flatMap (bytes order a)) :=
  h.written_append order a (List.length_nil : ([] : Bytes).length = 0)

end Gapless

end Field

/-! ### Records -/

/-- The records of a type are written as their fields say and read back, and each block of their
size is what one of them is written as. -/
structure Record.OneToOne (α : Type) [Record α] (fields : List (Field α)) (size : Nat) : Prop where
  partition : Field.Partition fields size
  written : ∀ (order : ByteOrder) (a : α),
    Field.Written fields size order a (Record.encode order a)
  parse_encode : ∀ (order : ByteOrder) (a : α),
    Record.parse? order (Record.encode order a) = some a
  encode_parse : ∀ (order : ByteOrder) (block : Bytes), block.length = size →
    ∃ a : α, Record.parse? order block = some a ∧ Record.encode order a = block

theorem Record.oneToOne_of_gapless {α : Type} [Record α] [LawfulRecord α]
    {fields : List (Field α)} (hfields : Field.Gapless 0 fields (Record.size α))
    (hencode : ∀ (order : ByteOrder) (a : α),
      Record.encode order a = fields.flatMap (Field.bytes order a)) :
    Record.OneToOne α fields (Record.size α) where
  partition := hfields.partition
  written order a := by
    rw [hencode]
    exact hfields.written order a
  parse_encode order a := by
    have hparse := LawfulRecord.parse?_encode order a []
    rwa [List.append_nil] at hparse
  encode_parse order block hblock := by
    obtain ⟨a, ha⟩ := Option.isSome_iff_exists.1
      (LawfulRecord.isSome_parse? (α := α) order block (Nat.le_of_eq hblock.symm))
    refine ⟨a, ha, ?_⟩
    rw [LawfulRecord.encode_of_parse? order block a ha, ← hblock, List.take_length]

/-- The fields of a section header. -/
def SectionHeader.layout : List (Field SectionHeader) :=
  [⟨0, 4, fun s => s.name.toNat⟩, ⟨4, 4, fun s => s.type.toNat⟩, ⟨8, 8, fun s => s.flags.toNat⟩,
    ⟨16, 8, fun s => s.addr.toNat⟩, ⟨24, 8, fun s => s.offset.toNat⟩,
    ⟨32, 8, fun s => s.size.toNat⟩, ⟨40, 4, fun s => s.link.toNat⟩, ⟨44, 4, fun s => s.info.toNat⟩,
    ⟨48, 8, fun s => s.addralign.toNat⟩, ⟨56, 8, fun s => s.entsize.toNat⟩]

theorem SectionHeader.oneToOne : Record.OneToOne SectionHeader layout 64 :=
  Record.oneToOne_of_gapless (by decide) fun order s => by
    simp [layout, Field.bytes, Record.encode, encode, ByteOrder.encode, Word.toNat]

/-- The fields of a program header. -/
def ProgramHeader.layout : List (Field ProgramHeader) :=
  [⟨0, 4, fun p => p.type.toNat⟩, ⟨4, 4, fun p => p.flags.toNat⟩,
    ⟨8, 8, fun p => p.offset.toNat⟩, ⟨16, 8, fun p => p.vaddr.toNat⟩,
    ⟨24, 8, fun p => p.paddr.toNat⟩, ⟨32, 8, fun p => p.filesz.toNat⟩,
    ⟨40, 8, fun p => p.memsz.toNat⟩, ⟨48, 8, fun p => p.align.toNat⟩]

theorem ProgramHeader.oneToOne : Record.OneToOne ProgramHeader layout 56 :=
  Record.oneToOne_of_gapless (by decide) fun order p => by
    simp [layout, Field.bytes, Record.encode, encode, ByteOrder.encode, Word.toNat]

/-- The fields of a dynamic entry; the tag is signed. -/
def DynamicEntry.layout : List (Field DynamicEntry) :=
  [⟨0, 8, fun e => (e.code.toInt % 2 ^ 64).toNat⟩, ⟨8, 8, fun e => e.value.toNat⟩]

/-- The two's complement of a signed word. -/
theorem toNat_toUInt64_eq (i : Int64) : i.toUInt64.toNat = (i.toInt % 2 ^ 64).toNat := by
  have h := BitVec.toNat_ofInt (n := 64) i.toInt
  rw [← Int64.toInt_toBitVec, BitVec.ofInt_toInt] at h
  exact h

theorem DynamicEntry.oneToOne : Record.OneToOne DynamicEntry layout 16 :=
  Record.oneToOne_of_gapless (by decide) fun order e => by
    simp [layout, Field.bytes, Record.encode, encode, ByteOrder.encode, Word.toNat,
      toNat_toUInt64_eq]

/-- A negative tag is written with its sign bit in the first byte. -/
example : (DynamicEntry.encode .big ⟨-2, 5⟩).take 9 =
    [0xff, 0xff, 0xff, 0xff, 0xff, 0xff, 0xff, 0xfe, 0] := by
  decide

/-! ### The file header -/

namespace FileHeader

/-- The fields of the file header: the bytes of the identification one by one, and the words. -/
def layout : List (Field FileHeader) :=
  (List.finRange 16).map (fun i => ⟨i, 1, fun h => h.ident[i].toNat⟩) ++
    [⟨16, 2, fun h => h.type.toNat⟩, ⟨18, 2, fun h => h.machine.toNat⟩,
      ⟨20, 4, fun h => h.version.toNat⟩, ⟨24, 8, fun h => h.entry.toNat⟩,
      ⟨32, 8, fun h => h.phoff.toNat⟩, ⟨40, 8, fun h => h.shoff.toNat⟩,
      ⟨48, 4, fun h => h.flags.toNat⟩, ⟨52, 2, fun h => h.ehsize.toNat⟩,
      ⟨54, 2, fun h => h.phentsize.toNat⟩, ⟨56, 2, fun h => h.phnum.toNat⟩,
      ⟨58, 2, fun h => h.shentsize.toNat⟩, ⟨60, 2, fun h => h.shnum.toNat⟩,
      ⟨62, 2, fun h => h.shstrndx.toNat⟩]

theorem gapless_layout : Field.Gapless 0 layout 64 := by
  decide

variable {h : FileHeader} {bs : Bytes}

theorem encode_eq_flatMap_layout (h : FileHeader) :
    h.encode = layout.flatMap (Field.bytes h.byteOrder h) := by
  -- a byte of the identification is its own digit, in either byte order
  have hbyte : ∀ b : UInt8, h.byteOrder.digits 1 b.toNat = [b] := by
    intro b
    cases h.byteOrder <;> simp [ByteOrder.digits, ByteOrder.ascendingDigits]
  have hident : h.ident.toList = (List.finRange 16).flatMap fun i => [h.ident[i]] := by
    rw [← List.map_eq_flatMap]
    exact List.ext_getElem (by simp) fun i _ _ => by simp
  rw [encode, hident]
  simp [layout, Field.bytes, ByteOrder.encode, Word.toNat, List.flatMap_map, hbyte]

theorem written_encode (h : FileHeader) : Field.Written layout 64 h.byteOrder h h.encode := by
  rw [encode_eq_flatMap_layout]
  exact gapless_layout.written h.byteOrder h

/-- Bytes that start with a header start with its identification. -/
theorem start_of_encode_prefix (hpre : h.encode <+: bs) :
    bs.take 4 = h.ident.toList.take 4 ∧ ∀ i (hi : i < 16), bs[i]? = some h.ident[i] := by
  have hident : h.ident.toList <+: h.encode := List.prefix_append _ _
  obtain ⟨rest, rfl⟩ := hident.trans hpre
  have hlen : h.ident.toList.length = 16 := h.ident.length_toList
  refine ⟨List.take_append_of_le_length (by omega), fun i hi => ?_⟩
  rw [List.getElem?_append_left (by omega), List.getElem?_eq_getElem (by omega)]
  simp

/-- The identification is that of a 64-bit file in the byte order of the header. -/
structure Identified (h : FileHeader) : Prop where
  signature : h.ident.toList.take 4 = [0x7f, 0x45, 0x4c, 0x46]
  fileClass : h.ident[4] = 2
  byteOrder : h.ident[5] = h.byteOrder.byte

/-- **A header is parsed exactly where it stands**: the bytes start with what it is written as, and
the identification is right. -/
theorem parse_eq_ok_iff : parse bs = .ok h ↔ h.Identified ∧ h.encode <+: bs := by
  have hlen := h.written_encode.length
  simp only [parse, bind_eq_ok_iff, FileClass.ofStart_eq_ok_iff, FileClass.require64,
    require_eq_ok_iff, parseFields_eq_ok_iff, exists_const]
  constructor
  · rintro ⟨_, ⟨hsig, hclass⟩, rfl, -, horder, hbytes⟩
    have hpre : h.encode <+: bs := hbytes ▸ List.take_prefix 64 bs
    obtain ⟨htake, hget⟩ := start_of_encode_prefix hpre
    rw [hget 4 (by omega)] at hclass
    rw [hget 5 (by omega)] at horder
    exact ⟨⟨htake.symm.trans hsig, Option.some.inj hclass, Option.some.inj horder⟩, hpre⟩
  · rintro ⟨⟨hsig, hclass, horder⟩, hpre⟩
    obtain ⟨htake, hget⟩ := start_of_encode_prefix hpre
    refine ⟨.elf64, ⟨htake.trans hsig, ?_⟩, rfl, hlen ▸ hpre.length_le, ?_, ?_⟩
    · rw [hget 4 (by omega), hclass]
      rfl
    · rw [hget 5 (by omega), horder]
    · rw [List.prefix_iff_eq_take.1 hpre, hlen]

/-- File headers are written as their fields say.  A header with the right identification is read
back, whatever follows it, and one that is read is written as the first bytes. -/
structure OneToOne : Prop where
  partition : Field.Partition layout 64
  written : ∀ h : FileHeader, Field.Written layout 64 h.byteOrder h h.encode
  parse_encode : ∀ (h : FileHeader) (rest : Bytes), h.Identified →
    parse (h.encode ++ rest) = .ok h
  encode_parse : ∀ (bs : Bytes) (h : FileHeader), parse bs = .ok h →
    64 ≤ bs.length ∧ h.encode = bs.take 64

theorem oneToOne : OneToOne where
  partition := gapless_layout.partition
  written := written_encode
  parse_encode h rest hid := parse_eq_ok_iff.2 ⟨hid, List.prefix_append _ _⟩
  encode_parse bs h hparse := by
    have hpre := (parse_eq_ok_iff.1 hparse).2
    have hlen := h.written_encode.length
    exact ⟨hlen ▸ hpre.length_le, hlen ▸ List.prefix_iff_eq_take.1 hpre⟩

end FileHeader

/-- **Every layout is a bijection, in either byte order.** -/
theorem layouts_one_to_one :
    Record.OneToOne SectionHeader SectionHeader.layout 64 ∧
      Record.OneToOne ProgramHeader ProgramHeader.layout 56 ∧
      Record.OneToOne DynamicEntry DynamicEntry.layout 16 ∧ FileHeader.OneToOne :=
  ⟨SectionHeader.oneToOne, ProgramHeader.oneToOne, DynamicEntry.oneToOne, FileHeader.oneToOne⟩

end ElfAnatomy
