import ElfAnatomy.Proofs.Dependencies

/-!
# Ordinary and deferred numbers

The number of sections, the index of the section with the names and the number of segments stand in
the file header, or else in the first section header.  A file whose numbers are moved from the one
place to the other decodes to the same image, up to the fields that the move overwrites.

* `Number.defer` : moves one number, byte by byte; `FileHeader.deferring` and
  `SectionHeader.holding` are the two headers after some numbers have been moved.
* `Number.foldr_defer_layout` : moving numbers rewrites these two headers and nothing else.
* `Renumbered` : what the files before and after have in common.
* `ImageIn.renumbered` : the image stands in the new file, with the new headers.
* `decode_deferring` : decoding finds it there.
-/

namespace ElfAnatomy

/-! ### Overwriting -/

namespace Bytes

/-- The bytes with `part` in the place of those from `offset` on. -/
def overwrite (bs : Bytes) (offset : Nat) (part : Bytes) : Bytes :=
  bs.take offset ++ (part ++ bs.drop (offset + part.length))

variable {before rest part old : Bytes} {offset : Nat}

theorem overwrite_append_of_le (h : before.length ≤ offset) :
    overwrite (before ++ rest) offset part =
      before ++ overwrite rest (offset - before.length) part := by
  have hdrop : offset + part.length - before.length = offset - before.length + part.length := by
    omega
  rw [overwrite, overwrite, List.take_append, List.drop_append, List.take_of_length_le h,
    List.drop_eq_nil_of_le (Nat.le_add_right_of_le h), List.nil_append, List.append_assoc, hdrop]

theorem overwrite_append_of_fits (h : offset + part.length ≤ before.length) :
    overwrite (before ++ rest) offset part = overwrite before offset part ++ rest := by
  rw [overwrite, overwrite, List.take_append_of_le_length (by omega),
    List.drop_append_of_le_length h, List.append_assoc, List.append_assoc]

theorem overwrite_of_length_eq (h : part.length = old.length) : overwrite old 0 part = part := by
  rw [overwrite, h, Nat.zero_add, List.drop_length, List.append_nil, List.take_zero,
    List.nil_append]

theorem overwrite_append_of_length_eq (h : part.length = old.length) :
    overwrite (old ++ rest) 0 part = part ++ rest := by
  rw [overwrite_append_of_fits (by omega), overwrite_of_length_eq h]

end Bytes

/-! ### Moving a number -/

/-- A number that the file header gives or leaves to the first section header. -/
inductive Number
  /-- The number of sections. -/
  | sections
  /-- The index of the section that holds the section names. -/
  | names
  /-- The number of segments. -/
  | segments
deriving DecidableEq

namespace Number

/-- Where the number stands in the file header. -/
def headerOffset : Number → Nat
  | sections => 60
  | names => 62
  | segments => 56

/-- What stands there if the number is deferred. -/
def mark : Number → UInt16
  | sections => 0
  | names => FileHeader.deferredIndex
  | segments => FileHeader.deferredSegments

/-- Where the number stands in the first section header: in the place of its size, link or info. -/
def firstOffset : Number → Nat
  | sections => 32
  | names => 40
  | segments => 44

/-- The number that the file header gives, as bytes of the first section header. -/
def bytes (h : FileHeader) : Number → Bytes
  | sections => h.byteOrder.encode h.shnum.toUInt64
  | names => h.byteOrder.encode h.shstrndx.toUInt32
  | segments => h.byteOrder.encode h.phnum.toUInt32

/-- Moves the number that the file header gives to the first section header. -/
def defer (h : FileHeader) (n : Number) (data : Bytes) : Bytes :=
  (data.overwrite n.headerOffset (h.byteOrder.encode n.mark)).overwrite
    (h.shoff.toNat + n.firstOffset) (n.bytes h)

end Number

/-- The file header after some numbers have been moved. -/
def FileHeader.deferring (h : FileHeader) (moved : List Number) : FileHeader :=
  { h with
    shnum := if .sections ∈ moved then 0 else h.shnum
    shstrndx := if .names ∈ moved then deferredIndex else h.shstrndx
    phnum := if .segments ∈ moved then deferredSegments else h.phnum }

/-- The first section header after some numbers of the file header have been moved. -/
def SectionHeader.holding (s : SectionHeader) (h : FileHeader) (moved : List Number) :
    SectionHeader :=
  { s with
    size := if .sections ∈ moved then h.shnum.toUInt64 else s.size
    link := if .names ∈ moved then h.shstrndx.toUInt32 else s.link
    info := if .segments ∈ moved then h.phnum.toUInt32 else s.info }

/-- The image after some numbers have been moved. -/
def Image.deferring (image : Image) (moved : List Number) : Image :=
  { image with
    header := image.header.deferring moved
    sections := image.sections.modifyHead fun s => s.holding image.header moved }

/-! ### The two headers after the move -/

variable {h : FileHeader} {s : SectionHeader} {moved : List Number}

theorem SectionHeader.toNat_size_holding (hm : .sections ∈ moved) :
    (s.holding h moved).size.toNat = h.shnum.toNat := by
  rw [holding, if_pos hm, UInt16.toNat_toUInt64]

theorem SectionHeader.toNat_link_holding (hm : .names ∈ moved) :
    (s.holding h moved).link.toNat = h.shstrndx.toNat := by
  rw [holding, if_pos hm, UInt16.toNat_toUInt32]

theorem SectionHeader.toNat_info_holding (hm : .segments ∈ moved) :
    (s.holding h moved).info.toNat = h.phnum.toNat := by
  rw [holding, if_pos hm, UInt16.toNat_toUInt32]

theorem FileHeader.toNat_shnum_deferring_le (h : FileHeader) (moved : List Number) :
    (h.deferring moved).shnum.toNat ≤ h.shnum.toNat := by
  by_cases hm : .sections ∈ moved
  · have hzero : (h.deferring moved).shnum = 0 := if_pos hm
    rw [hzero]
    exact Nat.zero_le _
  · have hnum : (h.deferring moved).shnum = h.shnum := if_neg hm
    exact Nat.le_of_eq (congrArg UInt16.toNat hnum)

theorem FileHeader.deferring_nil (h : FileHeader) : h.deferring [] = h := by
  simp [deferring]

theorem SectionHeader.holding_nil (s : SectionHeader) (h : FileHeader) : s.holding h [] = s := by
  simp [holding]

theorem FileHeader.length_encode (h : FileHeader) : h.encode.length = 64 := by
  simp [encode]

theorem SectionHeader.length_encode (order : ByteOrder) (s : SectionHeader) :
    (s.encode order).length = 64 :=
  LawfulRecord.length_encode order s

namespace Number

/-- Marking a number as deferred overwrites its field of the file header. -/
theorem overwrite_encode (n : Number) :
    (h.deferring moved).encode.overwrite n.headerOffset (h.byteOrder.encode n.mark) =
      (h.deferring (n :: moved)).encode := by
  cases n <;>
    simp [FileHeader.encode, FileHeader.deferring, headerOffset, mark,
      Bytes.overwrite_append_of_le, Bytes.overwrite_append_of_length_eq,
      Bytes.overwrite_of_length_eq]

/-- Storing a number overwrites its field of the first section header. -/
theorem overwrite_encode_first (n : Number) :
    ((s.holding h moved).encode h.byteOrder).overwrite n.firstOffset (n.bytes h) =
      (s.holding h (n :: moved)).encode h.byteOrder := by
  cases n <;>
    simp [SectionHeader.encode, SectionHeader.holding, firstOffset, bytes,
      Bytes.overwrite_append_of_le, Bytes.overwrite_append_of_length_eq]

/-- A file of a header and a first section header, with the bytes between them and after them. -/
def layout (h : FileHeader) (s : SectionHeader) (between after : Bytes) : Bytes :=
  h.encode ++ (between ++ (s.encode h.byteOrder ++ after))

variable {between after : Bytes}

/-- Moving one more number rewrites the two headers. -/
theorem defer_layout (n : Number) (hoff : 64 + between.length = h.shoff.toNat) :
    n.defer h (layout (h.deferring moved) (s.holding h moved) between after) =
      layout (h.deferring (n :: moved)) (s.holding h (n :: moved)) between after := by
  have hmark : n.headerOffset + (h.byteOrder.encode n.mark).length ≤
      (h.deferring moved).encode.length := by
    rw [FileHeader.length_encode]
    cases n <;> simp [headerOffset]
  have hfirst : n.firstOffset + (n.bytes h).length ≤
      ((s.holding h moved).encode h.byteOrder).length := by
    rw [SectionHeader.length_encode]
    cases n <;> simp [firstOffset, bytes]
  have horder : (h.deferring moved).byteOrder = h.byteOrder := rfl
  have hskip : h.shoff.toNat + n.firstOffset - 64 - between.length = n.firstOffset := by omega
  rw [defer, layout, Bytes.overwrite_append_of_fits hmark, overwrite_encode]
  rw [Bytes.overwrite_append_of_le (by rw [FileHeader.length_encode]; omega),
    Bytes.overwrite_append_of_le (by rw [FileHeader.length_encode]; omega),
    FileHeader.length_encode, hskip, horder]
  rw [Bytes.overwrite_append_of_fits hfirst, overwrite_encode_first]
  rfl

/-- **Moving numbers rewrites the two headers, and nothing else.** -/
theorem foldr_defer_layout (moved : List Number) (hoff : 64 + between.length = h.shoff.toNat) :
    moved.foldr (defer h) (layout h s between after) =
      layout (h.deferring moved) (s.holding h moved) between after := by
  induction moved with
  | nil => rw [FileHeader.deferring_nil, SectionHeader.holding_nil, List.foldr_nil]
  | cons n moved ih => rw [List.foldr_cons, ih, defer_layout n hoff]

/-- A file is laid out like that if its first section header does not overlap the file header. -/
theorem exists_layout {data : Bytes} (hh : h.StandsIn data) (htable : 64 ≤ h.shoff.toNat)
    (hs : data.slice? h.shoff.toNat 64 = some (s.encode h.byteOrder)) :
    ∃ between after, 64 + between.length = h.shoff.toNat ∧ data = layout h s between after := by
  obtain ⟨hle, hfirst⟩ := Bytes.slice?_eq_some_iff.1 hs
  refine ⟨(data.drop 64).take (h.shoff.toNat - 64), data.drop (h.shoff.toNat + 64), ?_, ?_⟩
  · rw [List.length_take, List.length_drop]
    omega
  · have hrest : data.drop h.shoff.toNat =
        s.encode h.byteOrder ++ data.drop (h.shoff.toNat + 64) := by
      rw [← hfirst, ← List.drop_drop, List.take_append_drop]
    have hmiddle : data.drop 64 =
        (data.drop 64).take (h.shoff.toNat - 64) ++ data.drop h.shoff.toNat := by
      have hdrop : data.drop h.shoff.toNat = (data.drop 64).drop (h.shoff.toNat - 64) := by
        rw [List.drop_drop, Nat.add_sub_cancel' htable]
      rw [hdrop, List.take_append_drop]
    rw [layout, ← hrest, ← hmiddle, ← hh.bytes, List.take_append_drop]

end Number

/-! ### Before and after -/

/-- Neither the file header nor the first section header has a byte in the region. -/
def FileHeader.Clear (h : FileHeader) (offset size : Nat) : Prop :=
  ∀ i, offset ≤ i → i < offset + size →
    64 ≤ i ∧ (i < h.shoff.toNat ∨ h.shoff.toNat + 64 ≤ i)

theorem FileHeader.clear_iff {offset size : Nat} :
    h.Clear offset size ↔
      size = 0 ∨ 64 ≤ offset ∧ (offset + size ≤ h.shoff.toNat ∨ h.shoff.toNat + 64 ≤ offset) := by
  constructor
  · intro hc
    by_cases h0 : size = 0
    · exact .inl h0
    · obtain ⟨hlow, hout⟩ := hc offset (Nat.le_refl _) (by omega)
      refine .inr ⟨hlow, hout.imp_left fun hlt => ?_⟩
      -- a region that starts before the first section header also ends before it
      by_contra hend
      obtain ⟨-, hin⟩ := hc h.shoff.toNat (by omega) (by omega)
      omega
  · intro hregion i hi hlt
    omega

instance {offset size : Nat} : Decidable (h.Clear offset size) :=
  decidable_of_iff _ FileHeader.clear_iff.symm

/-- The second file differs from the first in its headers, which are those after the move. -/
structure Renumbered (h : FileHeader) (s : SectionHeader) (moved : List Number)
    (data data' : Bytes) : Prop where
  length : data'.length = data.length
  header : data'.take 64 = (h.deferring moved).encode
  first : data'.slice? h.shoff.toNat 64 = some ((s.holding h moved).encode h.byteOrder)
  same : ∀ i, 64 ≤ i → i < h.shoff.toNat ∨ h.shoff.toNat + 64 ≤ i → data'[i]? = data[i]?

/-- Moving numbers renumbers the file. -/
theorem renumbered_of_foldr_defer {data : Bytes} (hh : h.StandsIn data)
    (htable : 64 ≤ h.shoff.toNat)
    (hs : data.slice? h.shoff.toNat 64 = some (s.encode h.byteOrder)) (moved : List Number) :
    Renumbered h s moved data (moved.foldr (Number.defer h) data) := by
  obtain ⟨between, after, hoff, rfl⟩ := Number.exists_layout hh htable hs
  rw [Number.foldr_defer_layout moved hoff]
  have hold := h.length_encode
  have hnew := (h.deferring moved).length_encode
  have holdFirst := s.length_encode h.byteOrder
  have hnewFirst := (s.holding h moved).length_encode h.byteOrder
  have horder : (h.deferring moved).byteOrder = h.byteOrder := rfl
  refine ⟨?_, ?_, ?_, ?_⟩
  · simp only [Number.layout, List.length_append, hold, hnew, horder, holdFirst, hnewFirst]
  · rw [Number.layout, ← hnew, List.take_left]
  · have hslice := Bytes.slice?_append ((h.deferring moved).encode ++ between)
      ((s.holding h moved).encode h.byteOrder) after
    rw [List.length_append, hnew, hoff, hnewFirst] at hslice
    rw [Number.layout, horder, ← List.append_assoc, ← List.append_assoc]
    exact hslice
  · intro i hlow hi
    have hpast : ¬ i < 64 := by omega
    simp only [Number.layout, horder, List.getElem?_append, hold, hnew, holdFirst, hnewFirst,
      if_neg hpast]
    rcases hi with hi | hi
    · have hbetween : i - 64 < between.length := by omega
      simp only [if_pos hbetween]
    · have hbetween : ¬ i - 64 < between.length := by omega
      have hafter : ¬ i - 64 - between.length < 64 := by omega
      simp only [if_neg hbetween, if_neg hafter]

theorem shoff_ne_zero (htable : 64 ≤ h.shoff.toNat) : h.shoff ≠ 0 := by
  intro h0
  rw [h0] at htable
  exact absurd htable (by decide)

namespace Renumbered

variable {data data' : Bytes} (hr : Renumbered h s moved data data')

include hr

/-- Bytes that the headers do not touch are the same. -/
theorem take_drop_eq {offset size : Nat} (hc : h.Clear offset size) :
    (data'.drop offset).take size = (data.drop offset).take size := by
  refine List.ext_getElem? fun i => ?_
  rw [List.getElem?_take, List.getElem?_take]
  split
  · rename_i hi
    obtain ⟨hlow, hout⟩ := hc (offset + i) (Nat.le_add_right _ _) (by omega)
    rw [List.getElem?_drop, List.getElem?_drop, hr.same _ hlow hout]
  · rfl

theorem slice?_eq {offset size : Nat} (hc : h.Clear offset size) :
    data'.slice? offset size = data.slice? offset size := by
  rw [Bytes.slice?, Bytes.slice?, hr.length, hr.take_drop_eq hc]

theorem bytesIn_eq {t : SectionHeader}
    (ht : t.occupiesFile = true → h.Clear t.offset.toNat t.size.toNat) :
    t.bytesIn data' = t.bytesIn data := by
  unfold SectionHeader.bytesIn
  split
  · rename_i ho
    exact hr.take_drop_eq (ht ho)
  · rfl

/-! ### The tables after the move -/

theorem standsIn (hh : h.StandsIn data) : (h.deferring moved).StandsIn data' := by
  -- the move leaves the identification alone
  have hident : data'.take 16 = data.take 16 := by
    have henc (g : FileHeader) : g.encode.take 16 = g.ident.toList :=
      List.take_left' (by simp)
    calc data'.take 16 = (data'.take 64).take 16 := by rw [List.take_take]; rfl
      _ = (h.deferring moved).ident.toList := by rw [hr.header, henc]
      _ = (data.take 64).take 16 := by rw [hh.bytes, henc]; rfl
      _ = data.take 16 := by rw [List.take_take]; rfl
  have hbyte (i : Nat) (hi : i < 16) : data'[i]? = data[i]? := by
    rw [← List.getElem?_take_of_lt hi, hident, List.getElem?_take_of_lt hi]
  refine ⟨?_, ?_, ?_, ?_, hr.header⟩
  · rw [hr.length]
    exact hh.long
  · have htake (bs : Bytes) : bs.take 4 = (bs.take 16).take 4 := by
      rw [List.take_take]
      rfl
    rw [htake, hident, ← htake]
    exact hh.signature
  · rw [hbyte 4 (by decide)]
    exact hh.fileClass
  · rw [hbyte 5 (by decide)]
    exact hh.byteOrder

theorem headerIn (hh : HeaderIn data h) (hcounted : h.shnum ≠ 0)
    (hsegments : .segments ∈ moved → h.phnum ≠ 0) : HeaderIn data' (h.deferring moved) := by
  refine ⟨hr.standsIn hh.stands, ?_, .inr ?_⟩
  · by_cases hm : .segments ∈ moved
    · exact .inr ⟨(hh.segments.resolve_left (hsegments hm)).1, .inl (if_pos hm)⟩
    · have hnum : (h.deferring moved).phnum = h.phnum := if_neg hm
      rw [hnum, hr.length]
      exact hh.segments
  · obtain ⟨hsize, hroom⟩ := hh.sections.resolve_left fun hno => hcounted hno.1
    have hle := h.toNat_shnum_deferring_le moved
    have hoff : (h.deferring moved).shoff = h.shoff := rfl
    refine ⟨hsize, ?_⟩
    rw [hr.length, hoff]
    omega

variable {rest : List SectionHeader}

/-- The section headers stand in their place, the first of them with the moved numbers. -/
theorem sectionsAt (htable : 64 ≤ h.shoff.toNat)
    (hs : Record.StandAt h.byteOrder data h.shoff.toNat (s :: rest)) :
    Record.StandAt h.byteOrder data' h.shoff.toNat (s.holding h moved :: rest) := by
  obtain ⟨-, hrest⟩ := Record.standAt_cons_iff.1 hs
  refine Record.standAt_cons_iff.2 ⟨hr.first, ?_⟩
  have hclear : h.Clear (h.shoff.toNat + 64) (64 * rest.length) := by
    intro i hi _
    omega
  exact (hr.slice?_eq hclear).trans hrest

theorem firstAt (htable : 64 ≤ h.shoff.toNat)
    (hs : Record.StandAt h.byteOrder data h.shoff.toNat (s :: rest)) :
    Record.StandAt h.byteOrder data' h.shoff.toNat [s.holding h moved] :=
  (hr.sectionsAt htable hs).take 1

theorem sectionCount (htable : 64 ≤ h.shoff.toNat) (hcounted : h.shnum ≠ 0)
    (hs : Record.StandAt h.byteOrder data h.shoff.toNat (s :: rest)) :
    SectionCount data' (h.deferring moved) h.shnum.toNat := by
  by_cases hm : .sections ∈ moved
  · have hoff := shoff_ne_zero htable
    rw [← SectionHeader.toNat_size_holding (s := s) hm]
    exact .deferred (h := h.deferring moved) (if_pos hm) hoff _ (hr.firstAt htable hs)
  · have hnum : (h.deferring moved).shnum = h.shnum := if_neg hm
    rw [← hnum] at hcounted ⊢
    exact .declared hcounted

theorem namesIndex (htable : 64 ≤ h.shoff.toNat) (hnamed : h.shstrndx ≠ 0xffff)
    (hs : Record.StandAt h.byteOrder data h.shoff.toNat (s :: rest)) :
    NamesIndex data' (h.deferring moved) h.shstrndx.toNat := by
  by_cases hm : .names ∈ moved
  · have hoff := shoff_ne_zero htable
    rw [← SectionHeader.toNat_link_holding (s := s) hm]
    exact .deferred (h := h.deferring moved) (if_pos hm) (.inr hoff) _ (hr.firstAt htable hs)
  · have hindex : (h.deferring moved).shstrndx = h.shstrndx := if_neg hm
    rw [← hindex] at hnamed ⊢
    exact .declared (.inl hnamed)

end Renumbered

/-- The number of segments is the same before and after. -/
theorem SegmentCount.deferring {rest : List SectionHeader} {n : Nat}
    (hn : SegmentCount h (s :: rest) n) (hsegments : .segments ∈ moved → h.phnum ≠ 0xffff) :
    SegmentCount (h.deferring moved) (s.holding h moved :: rest) n := by
  by_cases hm : .segments ∈ moved
  · rw [hn.eq_phnum (hsegments hm), ← SectionHeader.toNat_info_holding (s := s) hm]
    exact .deferred (if_pos hm) _ rest rfl
  · have hnum : (h.deferring moved).phnum = h.phnum := if_neg hm
    have hinfo : (s.holding h moved).info = s.info := if_neg hm
    cases hn with
    | declared hx =>
      rw [← hnum] at hx ⊢
      exact .declared (.inl (hx.resolve_right (List.cons_ne_nil _ _)))
    | deferred hx first tail hs =>
      cases hs
      rw [← hinfo]
      exact .deferred (hnum.trans hx) _ rest rfl

/-! ### A first section without contents

Neither an address nor a type leads to an inactive entry, so the strings do not depend on the
numbers that it holds. -/

section Lookup

variable {rest : List SectionHeader} (hnull : s.type = SectionType.null)

include hnull

/-- A search for anything but inactive entries passes over the first section. -/
theorem find?_holding {p : SectionHeader → Bool}
    (hp : ∀ t : SectionHeader, t.type = SectionType.null → ¬ p t = true) :
    (s.holding h moved :: rest).find? p = (s :: rest).find? p := by
  rw [List.find?_cons_of_neg (hp s hnull), List.find?_cons_of_neg (hp (s.holding h moved) hnull)]

theorem dynamicSection?_holding :
    dynamicSection? (s.holding h moved :: rest) = dynamicSection? (s :: rest) :=
  find?_holding hnull fun t ht => by
    rw [ht]
    decide

theorem startingAt?_holding (addr : UInt64) :
    startingAt? (s.holding h moved :: rest) addr = startingAt? (s :: rest) addr :=
  find?_holding hnull fun t ht => by simp [SectionHeader.occupiesFile, ht]

theorem containing?_holding (addr : UInt64) :
    containing? (s.holding h moved :: rest) addr = containing? (s :: rest) addr :=
  find?_holding hnull fun t ht => by simp [SectionHeader.occupiesFile, ht]

end Lookup

namespace Renumbered

variable {data data' : Bytes} (hr : Renumbered h s moved data data')
  {rest : List SectionHeader} {segments : List ProgramHeader}
  (hclear : ∀ t ∈ s :: rest, t.occupiesFile = true → h.Clear t.offset.toNat t.size.toNat)

include hr

theorem interpreterIn {path? : Option String}
    (hi : ∀ p, segments.find? (fun p => p.type == SegmentType.interp) = some p →
      h.Clear p.offset.toNat p.filesz.toNat)
    (hp : InterpreterIn data segments path?) : InterpreterIn data' segments path? := by
  cases hp with
  | absent hno => exact .absent hno
  | held p hfind hin path hpath =>
    rw [← hr.length] at hin
    rw [← hr.take_drop_eq (hi p hfind)] at hpath
    exact .held p hfind hin path hpath

include hclear

theorem namesIn {k : Nat} {names : List String} (hn : NamesIn data (s :: rest) k names) :
    NamesIn data' (s.holding h moved :: rest) k names := by
  cases hn with
  | absent hk => exact .absent hk
  | held hk holder hholder names hnames =>
    -- the section with the names is not the first one
    obtain ⟨j, rfl⟩ := Nat.exists_eq_add_one_of_ne_zero hk
    rw [← hr.bytesIn_eq (hclear holder (List.mem_of_getElem? hholder))] at hnames
    rw [List.getElem?_cons_succ] at hholder
    refine .held hk holder (List.getElem?_cons_succ.trans hholder) names ?_
    cases hnames with
    | cons hname hnames =>
      refine .cons ?_ hnames
      cases hname with
      | empty htype hnone => exact .empty htype hnone
      | held _ hsome htext => exact .held _ hsome htext

theorem entriesIn {d : SectionHeader} (hd : dynamicSection? (s :: rest) = some d)
    {all : List DynamicEntry} (hall : EntriesIn data h.byteOrder d all) :
    EntriesIn data' h.byteOrder d all := by
  have htype : d.type = SectionType.dynamic := by simpa using List.find?_some hd
  have ho : d.occupiesFile = true := by
    rw [SectionHeader.occupiesFile, htype]
    rfl
  have hc := hclear d (List.mem_of_find?_eq_some hd) ho
  rw [hall.count] at hc
  exact ⟨hall.entrySize, hall.count, (hr.slice?_eq hc).trans hall.entries⟩

variable (hnull : s.type = SectionType.null)

include hnull

theorem stringsIn {entries : List DynamicEntry} {t : StringTable}
    (ht : StringsIn data (s :: rest) entries t) :
    StringsIn data' (s.holding h moved :: rest) entries t := by
  obtain ⟨addr, d, haddr, hd, hbytes⟩ := ht
  have hmem : d ∈ s :: rest := by
    rw [← map_header_locateAddress?, Option.map_eq_some_iff] at hd
    obtain ⟨place, hplace, rfl⟩ := hd
    exact (of_locateAddress? hplace).1
  refine ⟨addr, d, haddr, ?_, ?_⟩
  · rw [startingAt?_holding hnull, containing?_holding hnull]
    exact hd
  · rw [hr.bytesIn_eq (hclear d hmem)]
    exact hbytes

theorem linkageIn {l : Linkage} (hl : LinkageIn data h.byteOrder (s :: rest) l) :
    LinkageIn data' h.byteOrder (s.holding h moved :: rest) l := by
  cases hl with
  | absent hno => exact .absent ((dynamicSection?_holding hnull).trans hno)
  | bare d hd all hall hbare =>
    exact .bare d ((dynamicSection?_holding hnull).trans hd) all (hr.entriesIn hclear hd hall) hbare
  | linked d hd all hall hlinked t ht strings hstrings =>
    exact .linked d ((dynamicSection?_holding hnull).trans hd) all (hr.entriesIn hclear hd hall)
      hlinked t (hr.stringsIn hclear hnull ht) strings hstrings

end Renumbered

/-! ### The image -/

/-- Numbers can be moved in a file of the image: the file header gives the number of sections and
the index of the names, and the first section header is an inactive entry.  Nothing else that is
read overlaps these two headers. -/
structure Image.Deferrable (image : Image) : Prop where
  counted : image.header.shnum ≠ 0
  named : image.header.shstrndx ≠ 0xffff
  apart : 64 ≤ image.header.shoff.toNat
  null : ∀ s, image.sections.head? = some s → s.type = SectionType.null
  segmentTable : image.header.Clear image.header.phoff.toNat (56 * image.segments.length)
  contents : ∀ s ∈ image.sections, s.occupiesFile = true →
    image.header.Clear s.offset.toNat s.size.toNat
  interpreter : ∀ p, image.segments.find? (fun p => p.type == SegmentType.interp) = some p →
    image.header.Clear p.offset.toNat p.filesz.toNat

variable {data data' : Bytes} {image : Image}

theorem SectionCount.eq_shnum {n : Nat} (hn : SectionCount data h n) (hcounted : h.shnum ≠ 0) :
    n = h.shnum.toNat :=
  hn.unique (.declared hcounted)

/-- The image stands in the file after the move, with its numbers moved. -/
theorem ImageIn.renumbered {rest : List SectionHeader} (hin : ImageIn data image)
    (hd : image.Deferrable) (hs : image.sections = s :: rest)
    (hsegments : .segments ∈ moved → image.header.phnum ≠ 0 ∧ image.header.phnum ≠ 0xffff)
    (hr : Renumbered image.header s moved data data') :
    ImageIn data' (image.deferring moved) := by
  obtain ⟨hheader, ⟨hcount, hat, hnum, hseg⟩, hsound, ⟨k, hindex, hnames⟩, hinterp, hlinkage,
    hanomalies⟩ := hin
  have hnull : s.type = SectionType.null := hd.null s (by rw [hs]; rfl)
  have hclear := hd.contents
  have hsections : (image.deferring moved).sections = s.holding image.header moved :: rest := by
    rw [Image.deferring, hs]
    rfl
  have hlength : (s.holding image.header moved :: rest).length = image.header.shnum.toNat := by
    rw [← hcount.eq_shnum hd.counted, hs]
    rfl
  rw [hs] at hat hnum hsound hnames hlinkage hclear
  constructor
  case header => exact hr.headerIn hheader hd.counted fun hm => (hsegments hm).1
  case tables =>
    constructor
    case sectionCount =>
      rw [hsections, hlength]
      exact hr.sectionCount hd.apart hd.counted hat
    case sectionsAt =>
      rw [hsections]
      exact hr.sectionsAt hd.apart hat
    case segmentCount =>
      rw [hsections]
      exact hnum.deferring fun hm => (hsegments hm).2
    case segmentsAt => exact hseg.imp_right fun h => (hr.slice?_eq hd.segmentTable).trans h
  case sound =>
    rw [hsections, hr.length]
    refine List.forall_mem_cons.2 ⟨⟨fun hlink => ?_, fun hne => absurd hnull hne⟩, ?_⟩
    · have htype : (s.holding image.header moved).type = SectionType.null := hnull
      rw [htype] at hlink
      exact absurd hlink (by decide)
    · exact (List.forall_mem_cons.1 hsound).2
  case names =>
    rw [hsections]
    refine ⟨_, hr.namesIndex hd.apart hd.named hat, hr.namesIn hclear ?_⟩
    rwa [← hindex.unique (.declared (.inl hd.named))]
  case interpreter => exact hr.interpreterIn hd.interpreter hinterp
  case linkage =>
    rw [hsections]
    exact hr.linkageIn hclear hnull hlinkage
  case anomalies => exact hanomalies

/-- **Moving numbers from the file header to the first section header changes nothing else.**
Whichever of them are moved, the new file decodes to the same image, up to the two headers. -/
theorem decode_deferring (data : Bytes) (image : Image) (h : decode data = .ok image)
    (hd : image.Deferrable) (moved : List Number)
    (hsegments : .segments ∈ moved → image.header.phnum ≠ 0 ∧ image.header.phnum ≠ 0xffff) :
    decode (moved.foldr (Number.defer image.header) data) = .ok (image.deferring moved) := by
  have hin := imageIn_of_decode h
  have hcount := hin.tables.sectionCount.eq_shnum hd.counted
  obtain ⟨s, rest, hs⟩ : ∃ s rest, image.sections = s :: rest := by
    refine List.exists_cons_of_ne_nil fun hnil => hd.counted ?_
    rw [hnil] at hcount
    exact UInt16.toNat.inj hcount.symm
  have hat := hin.tables.sectionsAt
  rw [hs] at hat
  have hr := renumbered_of_foldr_defer hin.header.stands hd.apart (Record.standAt_cons_iff.1 hat).1
    moved
  refine (decode_eq_ok_iff_of_few ?_).2 (hin.renumbered hd hs hsegments hr)
  -- there are no more sections than a header can count
  have hfew : image.sections.length < 2 ^ 16 := hcount ▸ image.header.shnum.toNat_lt
  have hlength : (image.deferring moved).sections.length = image.sections.length :=
    List.length_modifyHead
  simp only [UInt64.size]
  omega

theorem deferrable_linkedImage : linkedImage.Deferrable where
  counted := by decide
  named := by decide
  apart := by decide
  null := by
    intro s hs
    cases hs
    rfl
  segmentTable := by decide
  contents := by decide
  interpreter := by
    intro p hp
    cases hp
    decide

theorem decode_deferring_sample :
    decode linkedFile = .ok linkedImage ∧ linkedImage.Deferrable ∧
      decode ([.sections, .names, .segments].foldr (Number.defer linkedImage.header) linkedFile) =
        .ok (linkedImage.deferring [.sections, .names, .segments]) :=
  ⟨decode_linkedFile, deferrable_linkedImage,
    decode_deferring linkedFile linkedImage decode_linkedFile deferrable_linkedImage _
      fun _ => by decide⟩

end ElfAnatomy
