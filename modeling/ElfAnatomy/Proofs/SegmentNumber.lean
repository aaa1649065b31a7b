import ElfAnatomy.Proofs.Acceptance
import ElfAnatomy.Proofs.Stages

/-!
# The number of segments left to the first section header

A file header that gives `0xffff` as the number of segments means that the number stands in the
first section header.  That record is looked up in the section table once this has been read, and
not at its place in the file.  The two differ in one case: a header that leaves the number of its
sections to that record too, where the record then says that there are none.

* `TakesSegments` : the program header table counts as having a number of entries.
* `exists_outcome_readSections` : the section table is read wherever there is room for it.
* `takesSegments_of_tables` : the number of entries is the one that the section table leads to.
* `exists_takesSegments` : **that number is the one in the record where the section table starts,
  unless the table is empty.**
-/

namespace ElfAnatomy

variable {data : Bytes} {h : FileHeader}

/-- The program header table of a file counts as having `n` entries.  A run gets past reading it
exactly if it is empty or there is room for it (it is the last part of `Image.readTables`, with
which every run begins), and every image has as many segments. -/
structure TakesSegments (data : Bytes) (h : FileHeader) (n : Nat) : Prop where
  past_iff : (∃ tables, Image.readTables.outcome data = .ok tables) ↔
    n = 0 ∨ h.phoff.toNat + 56 * n ≤ data.length
  length : ∀ image, decode data = .ok image → image.segments.length = n

/-! ### The section table -/

/-- A header with a section table has one index of names. -/
theorem NamesIndex.exists_of_table (htable : h.shnum ≠ 0 ∨ h.shoff ≠ 0) {first : SectionHeader}
    (hfirst : Record.StandAt h.byteOrder data h.shoff.toNat [first]) :
    ∃ n, NamesIndex data h n := by
  by_cases hx : h.shstrndx = 0xffff
  · exact ⟨_, .deferred hx htable first hfirst⟩
  · exact ⟨_, .declared (.inl hx)⟩

namespace Image

variable {table : SectionTable} {n : Nat}

theorem outcome_readSections_eq_ok_iff :
    readSections.outcome data = .ok (h, table) ↔
      decodeHeader data = .ok h ∧ (SectionTable.read h).outcome data = .ok table := by
  simp only [readSections, Plan.bind_eq, Plan.pure_eq, Plan.outcome_bind_eq_ok_iff,
    Plan.outcome_done, Except.ok.injEq, Prod.mk.injEq, decodeHeader_eq_outcome]
  constructor
  · rintro ⟨h, hheader, table, htable, rfl, rfl⟩
    exact ⟨hheader, htable⟩
  · rintro ⟨hheader, htable⟩
    exact ⟨h, hheader, table, htable, rfl, rfl⟩

/-- A section table that the file has room for is read, and it stands in the file. -/
theorem exists_outcome_readSections (hlen : data.length < 2 ^ 63)
    (hh : decodeHeader data = .ok h) (htable : h.shnum ≠ 0 ∨ h.shoff ≠ 0)
    {first : SectionHeader} (hfirst : Record.StandAt h.byteOrder data h.shoff.toNat [first])
    {count : Nat} (hcount : SectionCount data h count)
    (hfit : h.shoff.toNat + 64 * count ≤ data.length) :
    ∃ table, readSections.outcome data = .ok (h, table) ∧ table.headers.length = count ∧
      Record.StandAt h.byteOrder data h.shoff.toNat table.headers := by
  obtain ⟨headers, rfl, hat⟩ := Record.exists_standAt SectionHeader h.byteOrder count hfit
  obtain ⟨n, hindex⟩ := NamesIndex.exists_of_table htable hfirst
  obtain ⟨k, rfl⟩ := hindex.exists_word
  have hword : 64 * headers.length < UInt64.size := by
    simp only [UInt64.size]
    omega
  have hread : (SectionTable.read h).outcome data = .ok ⟨headers, k⟩ :=
    (SectionTable.outcome_read_eq_ok_iff hword (decodeHeader_eq_ok_iff.1 hh)).2
      ⟨hcount, hat, hindex⟩
  exact ⟨⟨headers, k⟩, outcome_readSections_eq_ok_iff.2 ⟨hh, hread⟩, rfl, hat⟩

/-! ### The program header table -/

theorem outcome_readTables_eq (hsections : readSections.outcome data = .ok (h, table)) :
    readTables.outcome data =
      ((readSegments h table.headers).outcome data).map fun segments => (h, table, segments) := by
  simp only [readTables, Plan.bind_eq, Plan.outcome_bind, hsections, Plan.pure_eq]
  cases (readSegments h table.headers).outcome data <;> rfl

/-- A program header table of `n` entries is read exactly if it is empty or there is room for
it. -/
theorem exists_outcome_readSegments_iff (hin : HeaderIn data h) {sections : List SectionHeader}
    (hn : SegmentCount h sections n) :
    (∃ segments, (readSegments h sections).outcome data = .ok segments) ↔
      n = 0 ∨ h.phoff.toNat + 56 * n ≤ data.length := by
  simp only [outcome_readSegments_eq_ok_iff hin]
  constructor
  · rintro ⟨segments, hcount, hat⟩
    rw [hn.unique hcount]
    exact hat.imp (congrArg List.length) Record.StandAt.le
  · rintro (rfl | hroom)
    · exact ⟨[], hn, .inl rfl⟩
    · obtain ⟨segments, rfl, hat⟩ := Record.exists_standAt ProgramHeader h.byteOrder n hroom
      exact ⟨segments, hn, .inr hat⟩

/-- An image has the section table that is read to begin with. -/
theorem tables_of_decode (hsections : readSections.outcome data = .ok (h, table)) {image : Image}
    (himage : decode data = .ok image) : image.header = h ∧ image.sections = table.headers := by
  obtain ⟨hheader, htable⟩ := outcome_readSections_eq_ok_iff.1 hsections
  rw [decode_eq_outcome] at himage
  obtain ⟨hheader', k, htable', -⟩ := outcome_read_eq_ok_iff_exists.1 himage
  rw [decodeHeader_eq_outcome, hheader'] at hheader
  cases hheader
  rw [htable'] at htable
  cases htable
  exact ⟨rfl, rfl⟩

end Image

/-- The program header table has as many entries as the section table leads to. -/
theorem takesSegments_of_tables {table : SectionTable}
    (hsections : Image.readSections.outcome data = .ok (h, table)) {n : Nat}
    (hn : SegmentCount h table.headers n) : TakesSegments data h n where
  past_iff := by
    have hh := (Image.outcome_readSections_eq_ok_iff.1 hsections).1
    rw [← Image.exists_outcome_readSegments_iff (decodeHeader_eq_ok_iff.1 hh) hn,
      Image.outcome_readTables_eq hsections]
    cases (Image.readSegments h table.headers).outcome data <;> simp [Except.map]
  length := by
    intro image himage
    obtain ⟨rfl, hheaders⟩ := Image.tables_of_decode hsections himage
    rw [← hheaders] at hn
    exact (imageIn_of_decode himage).tables.segmentCount.unique hn

/-! ### The deferred number -/

/-- The number of segments that a section table with room in the file leads to, when the file
header defers it. -/
theorem segmentCount_of_standAt (hnum : h.phnum = 0xffff) {first : SectionHeader}
    (hfirst : Record.StandAt h.byteOrder data h.shoff.toNat [first]) {sections : List SectionHeader}
    (hat : Record.StandAt h.byteOrder data h.shoff.toNat sections) :
    SegmentCount h sections (if sections.length = 0 then 0xffff else first.info.toNat) := by
  cases sections with
  | nil =>
    have := SegmentCount.declared (h := h) (.inr (rfl : ([] : List SectionHeader) = []))
    rwa [hnum] at this
  | cons other rest =>
    cases Record.StandAt.unique (hat.take 1) hfirst rfl
    exact .deferred hnum first rest rfl

/-- **The deferred number of segments is the one in the record where the section table starts,
unless that table is empty**; then the mark of a deferred number is taken for a number. -/
theorem exists_takesSegments (data : Bytes) (hlen : data.length < 2 ^ 63) (h : FileHeader)
    (hh : decodeHeader data = .ok h) (hnum : h.phnum = 0xffff) (hoff : h.shoff ≠ 0) (count : Nat)
    (hcount : SectionCount data h count) (hfit : h.shoff.toNat + 64 * count ≤ data.length) :
    ∃ first : SectionHeader, Record.StandAt h.byteOrder data h.shoff.toNat [first] ∧
      TakesSegments data h (if count = 0 then 0xffff else first.info.toNat) := by
  -- the check of the header leaves room for one section header, whatever number it declares
  have hroom : h.shoff.toNat + 64 * 1 ≤ data.length := by
    have hsections := (decodeHeader_eq_ok_iff.1 hh).sections
    have := (hsections.resolve_left fun hno => hoff hno.2).2
    omega
  obtain ⟨records, hone, hfirst⟩ := Record.exists_standAt SectionHeader h.byteOrder 1 hroom
  obtain ⟨first, rfl⟩ := List.length_eq_one_iff.1 hone
  obtain ⟨table, hsections, rfl, hat⟩ :=
    Image.exists_outcome_readSections hlen hh (.inr hoff) hfirst hcount hfit
  exact ⟨first, hfirst, takesSegments_of_tables hsections (segmentCount_of_standAt hnum hfirst hat)⟩

/-- A header that leaves both numbers to the first section header. -/
def deferringHeader : FileHeader :=
  { bareHeader with
    phoff := 128, shoff := 64, phentsize := 56, phnum := 0xffff, shentsize := 64 }

/-- A first section header that gives a number of sections and a number of segments. -/
def numbering (sections : UInt64) (segments : UInt32) : SectionHeader := {
  name := 0, type := 0, flags := 0, addr := 0, offset := 0, size := sections, link := 0
  info := segments, addralign := 0, entsize := 0 }

/-- A file of such a header, the record that gives the numbers, and one segment. -/
def deferringFile (sections : UInt64) (segments : UInt32) : Bytes :=
  deferringHeader.encode ++ Record.encodeAll .little [numbering sections segments] ++
    Record.encodeAll .little
      [({ type := 1, flags := 4, offset := 0, vaddr := 0, paddr := 0, filesz := 64, memsz := 64,
          align := 1 } : ProgramHeader)]

/-- One section and one segment. -/
theorem exists_takesSegments_sample :
    decodeHeader (deferringFile 1 1) = .ok deferringHeader ∧
      SectionCount (deferringFile 1 1) deferringHeader 1 ∧
      ∃ first : SectionHeader,
        Record.StandAt .little (deferringFile 1 1) 64 [first] ∧
          TakesSegments (deferringFile 1 1) deferringHeader first.info.toNat := by
  have hheader : decodeHeader (deferringFile 1 1) = .ok deferringHeader := by
    rw [decodeHeader_eq_outcome]
    decide +kernel
  have hfirst : Record.StandAt .little (deferringFile 1 1) 64 [numbering 1 1] := by
    rw [Record.StandAt]
    decide +kernel
  have hcount : SectionCount (deferringFile 1 1) deferringHeader 1 :=
    .deferred rfl (by decide) (numbering 1 1) hfirst
  exact ⟨hheader, hcount, exists_takesSegments (deferringFile 1 1) (by decide +kernel)
    deferringHeader hheader rfl (by decide) 1 hcount (by decide +kernel)⟩

/-- No section and no segment: a table of `0xffff` entries is looked for, and there is no room for
it. -/
theorem not_takesSegments_of_no_section :
    decodeHeader (deferringFile 0 0) = .ok deferringHeader ∧
      deferringHeader.phnum = 0xffff ∧ deferringHeader.shoff ≠ 0 ∧
      SectionCount (deferringFile 0 0) deferringHeader 0 ∧
      deferringHeader.shoff.toNat + 64 * 0 ≤ (deferringFile 0 0).length ∧
      Record.StandAt .little (deferringFile 0 0) 64 [numbering 0 0] ∧
      ¬ TakesSegments (deferringFile 0 0) deferringHeader (numbering 0 0).info.toNat := by
  have hheader : decodeHeader (deferringFile 0 0) = .ok deferringHeader := by
    rw [decodeHeader_eq_outcome]
    decide +kernel
  have hfirst : Record.StandAt .little (deferringFile 0 0) 64 [numbering 0 0] := by
    rw [Record.StandAt]
    decide +kernel
  have herror : Image.readTables.outcome (deferringFile 0 0) =
      .error (.truncatedTable 128 3669960 184) := by
    decide +kernel
  refine ⟨hheader, rfl, by decide, .deferred rfl (by decide) (numbering 0 0) hfirst,
    by decide +kernel, hfirst, fun h => ?_⟩
  obtain ⟨tables, htables⟩ := h.past_iff.2 (.inl rfl)
  rw [herror] at htables
  cases htables

end ElfAnatomy
