import ElfAnatomy.Proofs.Strings

/-!
# Decoding a file

* `decodeHeader_eq_ok_iff`, `decode_eq_ok_iff` : decoding gives exactly what stands in the file.
* `imageIn_of_decode` : the half of it that holds for files of any length.
-/

namespace ElfAnatomy

variable {data : Bytes} {image : Image}

/-- The stages of reading an image. -/
theorem Image.outcome_read_eq_ok_iff_exists :
    read.outcome data = .ok image ↔
      FileHeader.readStaged.outcome data = .ok image.header ∧
        ∃ k, (SectionTable.read image.header).outcome data = .ok ⟨image.sections, k⟩ ∧
          (readSegments image.header image.sections).outcome data = .ok image.segments ∧
          (∀ s ∈ image.sections, s.Sound image.sections.length data.length) ∧
          (SectionTable.readNames ⟨image.sections, k⟩).outcome data = .ok image.names ∧
          (readInterpreter image.segments).outcome data = .ok image.interpreter ∧
          (Linkage.read image.header.byteOrder image.sections).outcome data =
            .ok image.linkage ∧
          image.anomalies = Anomaly.ofSegments image.segments := by
  simp only [read, Plan.bind_eq, Plan.lift_eq, Plan.pure_eq, Plan.outcome_bind_eq_ok_iff,
    Plan.outcome_done, Plan.outcome_length, Plan.outcome_reached, Except.ok.injEq,
    exists_eq_left', checkSections_eq_ok_iff, exists_const]
  constructor
  · rintro ⟨header, hheader, ⟨sections, k⟩, htable, segments, hsegments, hsound, -, names, hnames,
      -, interpreter, hinterp, linkage, hlinkage, -, rfl⟩
    exact ⟨hheader, k, htable, hsegments, hsound, hnames, hinterp, hlinkage, rfl⟩
  · rintro ⟨hheader, k, htable, hsegments, hsound, hnames, hinterp, hlinkage, hanomalies⟩
    refine ⟨_, hheader, _, htable, _, hsegments, hsound, trivial, _, hnames, trivial, _, hinterp,
      _, hlinkage, trivial, ?_⟩
    rw [← hanomalies]

/-- An image that is read shows what stands in the file. -/
theorem Image.imageIn_of_outcome_read (h : read.outcome data = .ok image) :
    ImageIn data image := by
  obtain ⟨hheader, k, htable, hsegments, hsound, hnames, hinterp, hlinkage, hanomalies⟩ :=
    outcome_read_eq_ok_iff_exists.1 h
  obtain ⟨hcount, hat, hindex⟩ := SectionTable.standAt_of_outcome_read htable
  obtain ⟨hnum, hseg⟩ := standAt_of_outcome_readSegments hsegments
  exact {
    header := FileHeader.outcome_readStaged_eq_ok_iff.1 hheader
    tables := ⟨hcount, hat, hnum, hseg⟩
    sound := hsound
    names := ⟨_, hindex, (SectionTable.outcome_readNames_eq_ok_iff hsound).1 hnames⟩
    interpreter := outcome_readInterpreter_eq_ok_iff.1 hinterp
    linkage := Linkage.linkageIn_of_outcome_read hsound hlinkage
    anomalies := hanomalies }

/-- The index of the section with the names is found as a word. -/
theorem NamesIndex.exists_word {h : FileHeader} {n : Nat} (hn : NamesIndex data h n) :
    ∃ k : UInt32, k.toNat = n := by
  cases hn with
  | declared => exact ⟨h.shstrndx.toUInt32, UInt16.toNat_toUInt32 _⟩
  | deferred _ _ first => exact ⟨first.link, rfl⟩

/-- **The image that is read shows what stands in the file.**  The size of the section table has to
be a word. -/
theorem Image.outcome_read_eq_ok_iff (hfit : 64 * image.sections.length < UInt64.size) :
    read.outcome data = .ok image ↔ ImageIn data image := by
  refine ⟨imageIn_of_outcome_read, fun h => ?_⟩
  obtain ⟨hheader, ⟨hcount, hat, hnum, hseg⟩, hsound, ⟨n, hindex, hnames⟩, hinterp, hlinkage,
    hanomalies⟩ := h
  obtain ⟨k, rfl⟩ := hindex.exists_word
  -- each stage reads on from what the stages before have found
  refine outcome_read_eq_ok_iff_exists.2
    ⟨FileHeader.outcome_readStaged_eq_ok_iff.2 hheader, k, ?_, ?_, hsound, ?_, ?_, ?_, hanomalies⟩
  · exact (SectionTable.outcome_read_eq_ok_iff hfit hheader).2 ⟨hcount, hat, hindex⟩
  · exact (outcome_readSegments_eq_ok_iff hheader).2 ⟨hnum, hseg⟩
  · exact (SectionTable.outcome_readNames_eq_ok_iff hsound).2 hnames
  · exact outcome_readInterpreter_eq_ok_iff.2 hinterp
  · exact (Linkage.outcome_read_eq_ok_iff hsound).2 hlinkage

theorem decodeHeader_eq_ok_iff {h : FileHeader} :
    decodeHeader data = .ok h ↔ HeaderIn data h := by
  rw [decodeHeader_eq_outcome, FileHeader.outcome_readStaged_eq_ok_iff]

theorem imageIn_of_decode (h : decode data = .ok image) : ImageIn data image :=
  Image.imageIn_of_outcome_read ((decode_eq_outcome data).symm.trans h)

/-- An image of so few sections that the size of their table is a word. -/
theorem decode_eq_ok_iff_of_few (hfit : 64 * image.sections.length < UInt64.size) :
    decode data = .ok image ↔ ImageIn data image := by
  rw [decode_eq_outcome, Image.outcome_read_eq_ok_iff hfit]

theorem decode_eq_ok_iff (hlen : data.length < 2 ^ 63) :
    decode data = .ok image ↔ ImageIn data image := by
  refine ⟨imageIn_of_decode, fun h => (decode_eq_ok_iff_of_few ?_).2 h⟩
  -- the section table lies in the file
  have hle : image.header.shoff.toNat + 64 * image.sections.length ≤ data.length :=
    h.tables.sectionsAt.le
  simp only [UInt64.size]
  omega

end ElfAnatomy
