import ElfAnatomy.Proofs.Images

/-!
# The tables are the bytes of the file

What an image says about a file can be written back: each record of the image is written as the
very bytes that stand at its place in the file, in the byte order of the file.

* `DynamicEntry.upToNull_prefix`, `DynamicEntry.upToNull_ends` : where the dynamic entries are cut
  off.
* `Faithful` : the header, each section header, each program header and the dynamic entries are
  bytes of the file, and none is left out.
* `faithful_of_decode` : every image that is decoded is faithful, in files of any length.
-/

namespace ElfAnatomy

variable {data : Bytes}

/-! ### Up to the first null entry -/

namespace DynamicEntry

theorem upToNull_prefix (es : List DynamicEntry) : upToNull es <+: es := by
  induction es with
  | nil => exact List.nil_prefix
  | cons e es ih =>
    rw [upToNull]
    split
    · exact ⟨es, rfl⟩
    · exact List.cons_prefix_cons.2 ⟨rfl, ih⟩

/-- Entries are only left out after a null entry. -/
theorem upToNull_ends (es : List DynamicEntry) :
    upToNull es = es ∨ ∃ last, (upToNull es).getLast? = some last ∧ last.code = 0 := by
  induction es with
  | nil => exact .inl rfl
  | cons e es ih =>
    rw [upToNull]
    split
    · rename_i h
      exact .inr ⟨e, rfl, h⟩
    · rcases ih with ih | ⟨last, hlast, h⟩
      · exact .inl (by rw [ih])
      · exact .inr ⟨last, by rw [List.getLast?_cons, hlast]; rfl, h⟩

/-- No entry before the last one is a null entry. -/
theorem code_ne_zero_of_mem_dropLast {es : List DynamicEntry} :
    ∀ e ∈ (upToNull es).dropLast, e.code ≠ 0 := by
  induction es with
  | nil => simp [upToNull]
  | cons e es ih =>
    rw [upToNull]
    split
    · -- the null entry is the last one kept
      simp
    · rename_i h
      intro e' he'
      cases hes : upToNull es with
      | nil => simp [hes] at he'
      | cons e₂ rest =>
        rw [hes, List.dropLast_cons_of_ne_nil (by simp), List.mem_cons] at he'
        rcases he' with rfl | he'
        · exact h
        · exact ih e' (hes ▸ he')

end DynamicEntry

/-! ### Images -/

/-- The entries are the first ones of the section, each written as it stands there: all of them,
or those up to the first null entry. -/
structure LeadingIn (data : Bytes) (order : ByteOrder) (d : SectionHeader)
    (entries : List DynamicEntry) : Prop where
  bytes : data.slice? d.offset.toNat (16 * entries.length) =
    some (Record.encodeAll order entries)
  inside : 16 * entries.length ≤ d.size.toNat
  ends : 16 * entries.length = d.size.toNat ∨
    ∃ last, entries.getLast? = some last ∧ last.code = 0
  unbroken : ∀ e ∈ entries.dropLast, e.code ≠ 0

/-- The records of the image are the bytes of the file. -/
structure Faithful (data : Bytes) (image : Image) : Prop where
  long : 64 ≤ data.length
  byteOrder : data[5]? = some image.header.byteOrder.byte
  header : data.take 64 = image.header.encode
  sectionCount : SectionCount data image.header image.sections.length
  sections : ∀ i (hi : i < image.sections.length),
    data.slice? (image.header.shoff.toNat + 64 * i) 64 =
      some (image.sections[i].encode image.header.byteOrder)
  segmentCount : image.header.phnum ≠ 0xffff →
    image.segments.length = image.header.phnum.toNat
  segments : ∀ j (hj : j < image.segments.length),
    data.slice? (image.header.phoff.toNat + 56 * j) 56 =
      some (image.segments[j].encode image.header.byteOrder)
  dynamic : ∀ d, dynamicSection? image.sections = some d →
    LeadingIn data image.header.byteOrder d image.linkage.entries

theorem LinkageIn.exists_entriesIn {order : ByteOrder} {sections : List SectionHeader}
    {l : Linkage} (h : LinkageIn data order sections l) {d : SectionHeader}
    (hd : dynamicSection? sections = some d) :
    ∃ all, EntriesIn data order d all ∧ l.entries = DynamicEntry.upToNull all := by
  obtain hno | ⟨s, hs, all, hall, -⟩ | ⟨s, hs, all, hall, -⟩ := h
  · rw [hno] at hd
    cases hd
  · rw [hs] at hd
    cases hd
    exact ⟨all, hall, rfl⟩
  · rw [hs] at hd
    cases hd
    exact ⟨all, hall, rfl⟩

/-- What is read of a dynamic section are its first entries. -/
theorem EntriesIn.leadingIn {order : ByteOrder} {d : SectionHeader} {all : List DynamicEntry}
    (h : EntriesIn data order d all) :
    LeadingIn data order d (DynamicEntry.upToNull all) := by
  have hpre := DynamicEntry.upToNull_prefix all
  have hat := h.entries.take (DynamicEntry.upToNull all).length
  rw [← List.prefix_iff_eq_take.1 hpre] at hat
  refine ⟨hat, ?_, ?_, DynamicEntry.code_ne_zero_of_mem_dropLast⟩
  · rw [h.count]
    exact Nat.mul_le_mul_left 16 hpre.length_le
  · refine (DynamicEntry.upToNull_ends all).imp_left fun heq => ?_
    rw [heq, h.count]

theorem SegmentCount.eq_phnum {h : FileHeader} {sections : List SectionHeader} {n : Nat}
    (hn : SegmentCount h sections n) (hx : h.phnum ≠ 0xffff) : n = h.phnum.toNat := by
  cases hn with
  | declared => rfl
  | deferred hx' => exact absurd hx' hx

theorem ImageIn.faithful {image : Image} (h : ImageIn data image) : Faithful data image where
  long := h.header.stands.long
  byteOrder := h.header.stands.byteOrder
  header := h.header.stands.bytes
  sectionCount := h.tables.sectionCount
  sections := h.tables.sectionsAt.getElem
  segmentCount := h.tables.segmentCount.eq_phnum
  segments := by
    intro j hj
    rcases h.tables.segmentsAt with hnil | hat
    · -- an empty table need not lie anywhere
      rw [hnil] at hj
      cases hj
    · exact hat.getElem j hj
  dynamic := by
    intro d hd
    obtain ⟨all, hall, heq⟩ := h.linkage.exists_entriesIn hd
    rw [heq]
    exact hall.leadingIn

/-- **Every image that is decoded consists of the bytes of the file.** -/
theorem faithful_of_decode (data : Bytes) (image : Image) (h : decode data = .ok image) :
    Faithful data image :=
  (imageIn_of_decode h).faithful

/-- An image with a segment and a dynamic section, in the byte order that is the less common. -/
def sampleImage : Image where
  header := {
    ident := ⟨#[0x7f, 0x45, 0x4c, 0x46, 2, 2, 1, 0, 0, 0, 0, 0, 0, 0, 0, 0], rfl⟩
    byteOrder := .big
    type := 3, machine := 21, version := 1, entry := 0, phoff := 64, shoff := 168, flags := 0
    ehsize := 64, phentsize := 56, phnum := 1, shentsize := 64, shnum := 2, shstrndx := 0 }
  sections := [
    { name := 0, type := 0, flags := 0, addr := 0, offset := 0, size := 0, link := 0, info := 0,
      addralign := 0, entsize := 0 },
    { name := 0, type := 6, flags := 3, addr := 0x1000, offset := 120, size := 48, link := 0,
      info := 0, addralign := 8, entsize := 16 }]
  names := ["", ""]
  segments := [
    { type := 1, flags := 5, offset := 0, vaddr := 0, paddr := 0, filesz := 296, memsz := 296,
      align := 8 }]
  linkage := { entries := [⟨30, 8⟩, ⟨0, 0⟩] }
  interpreter := none
  anomalies := []

/-- A file of that image; one more entry follows the null entry. -/
def sampleFile : Bytes :=
  sampleImage.header.encode ++ Record.encodeAll .big sampleImage.segments ++
    Record.encodeAll .big (sampleImage.linkage.entries ++ [⟨1, 1⟩]) ++
    Record.encodeAll .big sampleImage.sections

theorem decode_sampleFile : decode sampleFile = .ok sampleImage := by
  rw [decode_eq_outcome]
  decide +kernel

theorem faithful_sample :
    decode sampleFile = .ok sampleImage ∧ Faithful sampleFile sampleImage :=
  ⟨decode_sampleFile, faithful_of_decode sampleFile sampleImage decode_sampleFile⟩

end ElfAnatomy
