import ElfAnatomy.Proofs.Dependencies

/-!
# Which files are accepted

A file is decoded exactly if it belongs to a certain language of byte strings.  The conditions of
the language are about exact sums and products, so an offset near `2 ^ 64` gets no special
treatment.

* `Identified` : the first bytes, which every accepted file has.
* `WellFormed` : the whole language, with the header and the tables as its parse.
* `accepted_iff` : decoding accepts this language, at both depths.

Only files of fewer than `2 ^ 63` bytes are considered, which is every file that a device can hold.
-/

namespace ElfAnatomy

variable {data : Bytes}

/-! ### The language -/

/-- The file has room for a header, is marked as a 64-bit file and names a byte order. -/
structure Identified (data : Bytes) : Prop where
  long : 64 ≤ data.length
  signature : data.take 4 = [0x7f, 0x45, 0x4c, 0x46]
  fileClass : data[4]? = some 2
  encoding : data[5]? = some 1 ∨ data[5]? = some 2

/-- There is no section that holds names, or else every section that should have a name finds one
in that section. -/
def Nameable (data : Bytes) (sections : List SectionHeader) (k : Nat) : Prop :=
  k = 0 ∨
    ∃ hk : k < sections.length,
      ∀ s ∈ sections, ¬ (s.type = SectionType.null ∧ s.name = 0) →
        ∃ text, StringTable.Holds ⟨sections[k].bytesIn data⟩ s.name.toNat text

/-- The first segment with an interpreter, if there is one, lies in the file and starts with a
string. -/
def Interpretable (data : Bytes) (segments : List ProgramHeader) : Prop :=
  ∀ p, segments.find? (fun p => p.type == SegmentType.interp) = some p →
    p.offset.toNat + p.filesz.toNat ≤ data.length ∧
      ∃ path, StringTable.Holds ⟨(data.drop p.offset.toNat).take p.filesz.toNat⟩ 0 path

/-- The first dynamic section, if there is one, holds a whole number of entries; and if entries up
to the first null entry refer to strings, the table of these strings can be found and holds each
of them. -/
def Linkable (data : Bytes) (order : ByteOrder) (sections : List SectionHeader) : Prop :=
  ∀ s, dynamicSection? sections = some s →
    ∃ all, EntriesIn data order s all ∧
      ((∃ e ∈ DynamicEntry.upToNull all, e.tag.namesString = true) →
        ∃ t, StringsIn data sections (DynamicEntry.upToNull all) t ∧
          ∀ e ∈ DynamicEntry.upToNull all, e.tag.namesString = true →
            ∃ text, t.Holds e.value.toNat text)

/-- The file is well formed, with the given header and tables. -/
structure WellFormed (data : Bytes) (h : FileHeader) (sections : List SectionHeader)
    (segments : List ProgramHeader) : Prop where
  header : HeaderIn data h
  tables : TablesIn data h sections segments
  sectionRoom : h.shoff.toNat + 64 * sections.length ≤ data.length
  segmentRoom : segments = [] ∨ h.phoff.toNat + 56 * segments.length ≤ data.length
  sound : ∀ s ∈ sections, s.Sound sections.length data.length
  names : ∃ k, NamesIndex data h k ∧ Nameable data sections k
  interpreter : Interpretable data segments
  linkage : Linkable data h.byteOrder sections

/-! ### Headers -/

/-- Sixty-four bytes that identify the file are the bytes of a header, whatever follows the
identification. -/
theorem exists_standsIn_iff : (∃ h : FileHeader, h.StandsIn data) ↔ Identified data := by
  constructor
  · rintro ⟨h, hlong, hsig, hclass, hord, -⟩
    refine ⟨hlong, hsig, hclass, ?_⟩
    rw [hord]
    cases h.byteOrder
    · exact .inl rfl
    · exact .inr rfl
  · rintro ⟨hlong, hsig, hclass, henc⟩
    obtain ⟨order, hord⟩ : ∃ order : ByteOrder, data[5]? = some order.byte := by
      rcases henc with henc | henc
      · exact ⟨.little, henc⟩
      · exact ⟨.big, henc⟩
    obtain ⟨h, hh⟩ := Option.isSome_iff_exists.1 (FileHeader.isSome_fields? order hlong)
    obtain ⟨-, rfl, hbytes⟩ := FileHeader.fields?_eq_some_iff.1 hh
    exact ⟨h, hlong, hsig, hclass, hord, hbytes.symm⟩

/-! ### Strings -/

theorem exists_nameOf_iff {t : StringTable} {s : SectionHeader} :
    (∃ name, NameOf t s name) ↔
      (¬ (s.type = SectionType.null ∧ s.name = 0) → ∃ text, t.Holds s.name.toNat text) := by
  constructor
  · rintro ⟨_, ⟨htype, hname⟩ | ⟨_, -, htext⟩⟩ hs
    · exact absurd ⟨htype, hname⟩ hs
    · exact ⟨_, htext⟩
  · intro h
    by_cases hs : s.type = SectionType.null ∧ s.name = 0
    · exact ⟨"", .empty hs.1 hs.2⟩
    · obtain ⟨text, htext⟩ := h hs
      exact ⟨text, .held text hs htext⟩

theorem exists_namesIn_iff {sections : List SectionHeader} {k : Nat} :
    (∃ names, NamesIn data sections k names) ↔ Nameable data sections k := by
  constructor
  · rintro ⟨names, hk | ⟨-, holder, hh, _, hnames⟩⟩
    · exact .inl hk
    · obtain ⟨hk, rfl⟩ := List.getElem?_eq_some_iff.1 hh
      refine .inr ⟨hk, fun s hs => exists_nameOf_iff.1 ?_⟩
      exact exists_forall₂_iff.1 ⟨names, hnames⟩ s hs
  · rintro (rfl | ⟨hk, hnames⟩)
    · exact ⟨_, .absent rfl⟩
    · -- index 0 stands for no holder even if there is a section 0
      by_cases h0 : k = 0
      · exact ⟨_, .absent h0⟩
      · obtain ⟨names, hn⟩ :=
          exists_forall₂_iff.2 fun s hs => exists_nameOf_iff.2 (hnames s hs)
        exact ⟨names, .held h0 _ (List.getElem?_eq_getElem hk) names hn⟩

theorem exists_interpreterIn_iff {segments : List ProgramHeader} :
    (∃ path?, InterpreterIn data segments path?) ↔ Interpretable data segments := by
  constructor
  · rintro ⟨_, hno | ⟨p, hp, hin, path, hpath⟩⟩ q hq
    · have htype := List.find?_some hq
      exact absurd (by simpa using htype) (hno q (List.mem_of_find?_eq_some hq))
    · rw [hp] at hq
      cases hq
      exact ⟨hin, path, hpath⟩
  · intro h
    cases hp : segments.find? fun p => p.type == SegmentType.interp with
    | none => exact ⟨none, .absent (by simpa using hp)⟩
    | some p =>
      obtain ⟨hin, path, hpath⟩ := h p hp
      exact ⟨some path, .held p hp hin path hpath⟩

theorem exists_linkageIn_iff {order : ByteOrder} {sections : List SectionHeader} :
    (∃ l, LinkageIn data order sections l) ↔ Linkable data order sections := by
  constructor
  · rintro ⟨_, hno | ⟨s, hs, all, hall, hbare⟩ |
      ⟨s, hs, all, hall, -, t, ht, strings, hstrings⟩⟩ s' hs'
    · rw [hno] at hs'
      cases hs'
    · rw [hs] at hs'
      cases hs'
      refine ⟨all, hall, fun ⟨e, he, hstring⟩ => ?_⟩
      rw [hbare e he] at hstring
      cases hstring
    · rw [hs] at hs'
      cases hs'
      refine ⟨all, hall, fun _ => ⟨t, ht, fun e he hstring => ?_⟩⟩
      obtain ⟨p, -, hp⟩ :=
        exists_forall₂_iff.1 ⟨strings, hstrings⟩ e (List.mem_filter.2 ⟨he, hstring⟩)
      exact ⟨p.2, hp⟩
  · intro h
    cases hs : dynamicSection? sections with
    | none => exact ⟨_, .absent hs⟩
    | some s =>
      obtain ⟨all, hall, hlinked⟩ := h s hs
      -- without an entry that refers to a string, no table is looked for
      by_cases hstring : ∃ e ∈ DynamicEntry.upToNull all, e.tag.namesString = true
      · obtain ⟨t, ht, hholds⟩ := hlinked hstring
        have hpartner : ∀ e ∈ (DynamicEntry.upToNull all).filter fun e => e.tag.namesString,
            ∃ p : DynamicTag × String, p.1 = e.tag ∧ t.Holds e.value.toNat p.2 := by
          intro e he
          obtain ⟨he, hn⟩ := List.mem_filter.1 he
          obtain ⟨text, htext⟩ := hholds e he hn
          exact ⟨(e.tag, text), rfl, htext⟩
        obtain ⟨strings, hstrings⟩ := exists_forall₂_iff.2 hpartner
        exact ⟨_, .linked s hs all hall hstring t ht strings hstrings⟩
      · refine ⟨_, .bare s hs all hall fun e he => ?_⟩
        exact eq_false_of_ne_true fun hn => hstring ⟨e, he, hn⟩

/-! ### Files -/

theorem exists_imageIn_iff :
    (∃ image, ImageIn data image) ↔
      ∃ h sections segments, WellFormed data h sections segments := by
  constructor
  · rintro ⟨image, hheader, htables, hsound, ⟨k, hindex, hnames⟩, hinterp, hlinkage, -⟩
    exact ⟨_, _, _, {
      header := hheader
      tables := htables
      sectionRoom := htables.sectionsAt.le
      segmentRoom := htables.segmentsAt.imp_right Record.StandAt.le
      sound := hsound
      names := ⟨k, hindex, exists_namesIn_iff.1 ⟨_, hnames⟩⟩
      interpreter := exists_interpreterIn_iff.1 ⟨_, hinterp⟩
      linkage := exists_linkageIn_iff.1 ⟨_, hlinkage⟩ }⟩
  · rintro ⟨header, sections, segments, hheader, htables, -, -, hsound, ⟨k, hindex, hnames⟩,
      hinterp, hlinkage⟩
    obtain ⟨names, hnames⟩ := exists_namesIn_iff.2 hnames
    obtain ⟨interpreter, hinterp⟩ := exists_interpreterIn_iff.2 hinterp
    obtain ⟨linkage, hlinkage⟩ := exists_linkageIn_iff.2 hlinkage
    exact ⟨{
      header, sections, names, segments, linkage, interpreter,
      anomalies := Anomaly.ofSegments segments },
      hheader, htables, hsound, ⟨k, hindex, hnames⟩, hinterp, hlinkage, rfl⟩

/-- **Decoding accepts exactly the well-formed files**, and decoding of the header exactly the
files with a header whose tables can lie in the file. -/
theorem accepted_iff (data : Bytes) (hlen : data.length < 2 ^ 63) :
    ((∃ h, decodeHeader data = .ok h) ↔ Identified data ∧ ∃ h, HeaderIn data h) ∧
    ((∃ image, decode data = .ok image) ↔
      Identified data ∧ ∃ h sections segments, WellFormed data h sections segments) := by
  simp only [decodeHeader_eq_ok_iff, decode_eq_ok_iff hlen, exists_imageIn_iff]
  constructor
  · refine (and_iff_right_of_imp ?_).symm
    rintro ⟨h, hh⟩
    exact exists_standsIn_iff.1 ⟨h, hh.stands⟩
  · refine (and_iff_right_of_imp ?_).symm
    rintro ⟨h, sections, segments, hw⟩
    exact exists_standsIn_iff.1 ⟨h, hw.header.stands⟩

/-- The conditions hold of a file with sections, names, an interpreter and a string table that
starts inside a section. -/
theorem wellFormed_linkedFile :
    WellFormed linkedFile linkedImage.header linkedImage.sections linkedImage.segments where
  header := {
    stands := ⟨by decide +kernel, by decide +kernel, by decide +kernel, by decide +kernel,
      by decide +kernel⟩
    segments := .inr ⟨rfl, .inr (by decide +kernel)⟩
    sections := .inr ⟨rfl, by decide +kernel⟩ }
  tables := {
    sectionCount := .declared (by decide)
    sectionsAt := by
      unfold Record.StandAt
      decide +kernel
    segmentCount := .declared (.inl (by decide))
    segmentsAt := by
      unfold Record.StandAt
      decide +kernel }
  sectionRoom := by decide +kernel
  segmentRoom := .inr (by decide +kernel)
  sound := by
    have hsound : ∀ s ∈ linkedImage.sections,
        (s.type ∈ SectionType.linked → s.link.toNat < linkedImage.sections.length) ∧
          (s.type ≠ SectionType.null → s.type ≠ SectionType.nobits →
            s.offset.toNat + s.size.toNat ≤ linkedFile.length) := by decide +kernel
    exact fun s hs => ⟨(hsound s hs).1, (hsound s hs).2⟩
  names := by
    refine ⟨2, .declared (.inl (by decide)), .inr ⟨by decide, ?_⟩⟩
    have hnames : ∀ s ∈ linkedImage.sections, ¬ (s.type = SectionType.null ∧ s.name = 0) →
        ∃ text ∈ linkedImage.names, StringTable.resolve ⟨linkedImage.sections[2].bytesIn linkedFile⟩
          s.name.toUInt64 = .ok text := by decide +kernel
    intro s hs hnamed
    obtain ⟨text, -, htext⟩ := hnames s hs hnamed
    refine ⟨text, ?_⟩
    rw [← UInt32.toNat_toUInt64]
    exact StringTable.resolve_eq_ok_iff_holds.1 htext
  interpreter := by
    intro p hp
    cases hp
    have hpath : StringTable.resolve ⟨(linkedFile.drop 259).take 4⟩ 0 = .ok "/ld" := by
      decide +kernel
    exact ⟨by decide +kernel, "/ld", StringTable.resolve_eq_ok_iff_holds.1 hpath⟩
  linkage := by
    intro s hs
    cases hs
    refine ⟨linkedImage.linkage.entries ++ [⟨1, 14⟩], ⟨.inr rfl, by decide, ?_⟩, fun _ => ?_⟩
    · unfold Record.StandAt
      decide +kernel
    · refine ⟨⟨((linkedImage.sections[2].bytesIn linkedFile).drop 10).take 17⟩,
        ⟨0x200a, linkedImage.sections[2], by decide, by decide +kernel, by decide +kernel⟩, ?_⟩
      have hstrings : ∀ e ∈ DynamicEntry.upToNull (linkedImage.linkage.entries ++ [⟨1, 14⟩]),
          e.tag.namesString = true → ∃ text ∈ ["é.so", "me"],
            StringTable.resolve ⟨((linkedImage.sections[2].bytesIn linkedFile).drop 10).take 17⟩
              e.value = .ok text := by decide +kernel
      intro e he hstring
      obtain ⟨text, -, htext⟩ := hstrings e he hstring
      exact ⟨text, StringTable.resolve_eq_ok_iff_holds.1 htext⟩

theorem accepted_linkedFile :
    linkedFile.length < 2 ^ 63 ∧ (∃ h, decodeHeader linkedFile = .ok h) ∧
      ∃ image, decode linkedFile = .ok image := by
  have hlen : linkedFile.length < 2 ^ 63 := by decide +kernel
  have hident : Identified linkedFile :=
    ⟨by decide +kernel, by decide +kernel, by decide +kernel, .inl (by decide +kernel)⟩
  obtain ⟨hshallow, hdeep⟩ := accepted_iff linkedFile hlen
  exact ⟨hlen, hshallow.2 ⟨hident, _, wellFormed_linkedFile.header⟩,
    hdeep.2 ⟨hident, _, _, _, wellFormed_linkedFile⟩⟩

/-- The header of a file without tables. -/
def bareHeader : FileHeader where
  ident := ⟨#[0x7f, 0x45, 0x4c, 0x46, 2, 1, 1, 0, 0, 0, 0, 0, 0, 0, 0, 0], rfl⟩
  byteOrder := .little
  type := 2
  machine := 62
  version := 1
  entry := 0
  phoff := 0
  shoff := 0
  flags := 0
  ehsize := 64
  phentsize := 0
  phnum := 0
  shentsize := 0
  shnum := 0
  shstrndx := 0

/-- A header alone is a whole file. -/
example : decode bareHeader.encode =
    .ok { header := bareHeader, sections := [], names := [], segments := [], linkage := {},
          interpreter := none, anomalies := [] } := by
  decide +kernel

end ElfAnatomy
