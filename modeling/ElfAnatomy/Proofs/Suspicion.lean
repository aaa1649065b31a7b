import ElfAnatomy.Proofs.Diagnostics
import ElfAnatomy.Proofs.RowStrings

/-!
# Suspicious segments in every presentation

A segment with more bytes in the file than in memory is told of three times: by an anomaly of the
image, by a mark in its row, and by a flag in its part of the report.  The anomalies are found while
a file is decoded, the mark and the flag are worked out afresh; all of them agree.

* `Anomaly.mem_ofSegments`, `Anomaly.pairwise_ofSegments` : the anomalies are the suspicious
  segments, in the order of their indices.
* `Table.marked_segmentRow_iff` : the mark can be told from everything else in a row.
* `SuspicionShown` : how an image, its rows and its report tell of suspicious segments.
* `suspicion_shown` : **they agree**, for every image that is decoded.
-/

namespace ElfAnatomy

/-! ### Anomalies -/

namespace Anomaly

variable {segments : List ProgramHeader}

theorem mem_ofSegments {a : Anomaly} :
    a ∈ ofSegments segments ↔ ∃ p, segments[a.index]? = some p ∧ p.memsz < p.filesz ∧
      a.filesz = p.filesz ∧ a.memsz = p.memsz := by
  simp only [ofSegments, List.mem_map, List.mem_filter, Prod.exists,
    List.mk_mem_zipIdx_iff_getElem?, ProgramHeader.suspicious, decide_eq_true_eq]
  constructor
  · rintro ⟨p, i, ⟨hp, hsizes⟩, rfl⟩
    exact ⟨p, hp, hsizes, rfl, rfl⟩
  · rintro ⟨p, hp, hsizes, hfilesz, hmemsz⟩
    exact ⟨p, a.index, ⟨hp, hsizes⟩, by rw [← hfilesz, ← hmemsz]⟩

/-- The anomalies are in the order of the indices, and each index comes once at most. -/
theorem pairwise_ofSegments : (ofSegments segments).Pairwise fun a b => a.index < b.index := by
  have hindices : segments.zipIdx.Pairwise fun p q => p.2 < q.2 := by
    rw [← List.pairwise_map (f := Prod.snd) (R := (· < ·)), List.zipIdx_map_snd]
    exact List.pairwise_lt_range'
  exact List.pairwise_map.2 (hindices.filter _)

end Anomaly

/-- An anomaly of the image has this index. -/
def Image.Named (image : Image) (index : Nat) : Prop := ∃ a ∈ image.anomalies, a.index = index

/-! ### Marks -/

namespace Table

/-- The mark of suspicious segments stands somewhere in the row. -/
def Marked (row : String) : Prop := suspiciousMark.toList <:+: row.toList

/-- Only the mark brings a bracket into the row of a segment. -/
theorem exists_segmentRow_eq (p : ProgramHeader) :
    ∃ fields, Lacks '[' fields ∧
      segmentRow p = fields ++ if p.suspicious then suspiciousMark else "" := by
  have hout : Outside '[' := ⟨by decide, by decide, by decide⟩
  have htype : Lacks '[' (Names.segmentType p.type) :=
    Names.lacks_orHex hout (by simp [Names.segmentTypes, Lacks]) p.type
  have hflags : Lacks '[' (Names.segmentFlags p.flags) :=
    Names.lacks_segmentFlags hout (by decide) p.flags
  refine ⟨_, ?_, rfl⟩
  simp only [lacks_append, Column.lacks_left hout, htype, hflags, Hex.lacks_wide hout,
    Hex.lacks_number hout]
  simp [Lacks]

theorem marked_segmentRow_iff (p : ProgramHeader) :
    Marked (segmentRow p) ↔ p.suspicious = true := by
  obtain ⟨fields, hfields, hrow⟩ := exists_segmentRow_eq p
  rw [hrow, Marked, String.toList_append]
  cases p.suspicious with
  | true => exact iff_of_true (List.suffix_append _ _).isInfix rfl
  | false =>
    refine iff_of_false (fun hmark => hfields ?_) (by decide)
    have hbracket : '[' ∈ suspiciousMark.toList := by decide
    simpa using hmark.subset hbracket

end Table

/-! ### Images -/

variable {image : Image}

/-- How an image, its rows and its report tell of suspicious segments. -/
structure SuspicionShown (image : Image) : Prop where
  /-- There is one anomaly for each suspicious segment, with the sizes of the segment, -/
  listed : ∀ a, a ∈ image.anomalies ↔ ∃ p, image.segments[a.index]? = some p ∧
    p.memsz < p.filesz ∧ a.filesz = p.filesz ∧ a.memsz = p.memsz
  /-- and they are in the order of the segments. -/
  ascending : image.anomalies.Pairwise fun a b => a.index < b.index
  /-- The segment view has the lines of the segments after the column titles, -/
  view : image.segments ≠ [] →
    (Decoded.full image).render { segments := true } = Lines.text
      ("Program Headers:" :: Table.segmentColumns :: image.segmentBlocks.flatten)
  /-- the lines of a segment start with its row, and the row has a mark if an anomaly has the index
  of the segment. -/
  marked : ∀ i p, image.segments[i]? = some p → ∃ later,
    image.segmentBlocks[i]? = some (Table.segmentRow p :: later) ∧
      (Table.Marked (Table.segmentRow p) ↔ image.Named i)
  /-- The flags in a report agree with the anomalies, whoever writes it. -/
  flagged : ∀ write, Json.Writes write → ∀ path views document, views.segments = true →
    Json.Document (Report.writtenBy write path (.full image) views) document →
      ∃ entries, document.field? "segments" = some (.arr entries) ∧
        entries.length = image.segments.length ∧
        ∀ i entry, entries[i]? = some entry → ∃ flag,
          entry.field? "suspicious" = some (.bool flag) ∧ (flag = true ↔ image.Named i)
  /-- A report has the wordings of the anomalies, in order, and no list of them if there are
  none. -/
  reported : ∀ write, Json.Writes write → ∀ path views document,
    Json.Document (Report.writtenBy write path (.full image) views) document →
    (document.field? "anomalies" = none ↔ image.anomalies = []) ∧
      document.listed? "anomalies" Json.text? = some (image.anomalies.map Anomaly.message)

/-- An anomaly has the index of a segment exactly if the segment is suspicious. -/
theorem Image.named_iff (hanomalies : image.anomalies = Anomaly.ofSegments image.segments) {i : Nat}
    {p : ProgramHeader} (hp : image.segments[i]? = some p) :
    image.Named i ↔ p.suspicious = true := by
  have hsizes : p.suspicious = true ↔ p.memsz < p.filesz := decide_eq_true_iff
  rw [Named, hanomalies, hsizes]
  constructor
  · rintro ⟨a, ha, rfl⟩
    obtain ⟨q, hq, hlt, -⟩ := Anomaly.mem_ofSegments.1 ha
    cases hp.symm.trans hq
    exact hlt
  · intro hlt
    exact ⟨⟨i, p.filesz, p.memsz⟩, Anomaly.mem_ofSegments.2 ⟨p, hp, hlt, rfl, rfl⟩, rfl⟩

/-- The list of segments in a report. -/
theorem Report.segments_of_document {write : Json → String} (hwrite : Json.Writes write)
    {path : String} {views : Views} {document : Json} (hview : views.segments = true)
    (hdocument : Json.Document (writtenBy write path (.full image) views) document) :
    document.field? "segments" = some (.arr (image.segments.map segmentEntry)) := by
  rw [hdocument.unique (hwrite _), field?_segments, Decoded.inView, if_pos hview]
  rfl

/-- The list of anomalies is left out of a report if it is empty. -/
theorem Report.anomalies_eq_none_iff {write : Json → String} (hwrite : Json.Writes write)
    {path : String} {views : Views} {document : Json}
    (hdocument : Json.Document (writtenBy write path (.full image) views) document) :
    document.field? "anomalies" = none ↔ image.anomalies = [] := by
  rw [hdocument.unique (hwrite _), field?_anomalies]
  show anomalies image = none ↔ _
  simp [anomalies]

theorem suspicionShown_of_anomalies
    (hanomalies : image.anomalies = Anomaly.ofSegments image.segments) : SuspicionShown image where
  listed := by
    intro a
    rw [hanomalies, Anomaly.mem_ofSegments]
  ascending := by
    rw [hanomalies]
    exact Anomaly.pairwise_ofSegments
  view := by
    intro hne
    rw [Decoded.render_segments, Table.segments_of_ne_nil hne]
  marked := by
    intro i p hp
    refine ⟨_, Image.getElem?_segmentBlocks hp, ?_⟩
    rw [Table.marked_segmentRow_iff, Image.named_iff hanomalies hp]
  flagged := by
    intro write hwrite path views document hview hdocument
    refine ⟨_, Report.segments_of_document hwrite hview hdocument, List.length_map _, ?_⟩
    intro i entry hentry
    rw [List.getElem?_map, Option.map_eq_some_iff] at hentry
    obtain ⟨p, hp, rfl⟩ := hentry
    exact ⟨p.suspicious, rfl, (Image.named_iff hanomalies hp).symm⟩
  reported := by
    intro write hwrite path views document hdocument
    refine ⟨Report.anomalies_eq_none_iff hwrite hdocument, ?_⟩
    rw [hdocument.unique (hwrite _)]
    exact Shown.listed?_anomalies path (.full image) views

/-- **All presentations agree on which segments are suspicious**: the anomalies, the marks in the
rows and the flags in the report, for every image that is decoded. -/
theorem suspicion_shown (d : Decoder) (image : Image) (h : d.decode.1 = .ok image) :
    SuspicionShown image := by
  obtain ⟨whole, hwhole⟩ := Decoder.exists_decode_of_ok h
  exact suspicionShown_of_anomalies (imageIn_of_decode hwhole).anomalies

/-- A program whose only segment has an anomaly, and so a mark. -/
theorem suspicion_shown_sample :
    (Decoder.decode { device := .ofBytes suspiciousFile }).1 = .ok suspiciousImage ∧
      SuspicionShown suspiciousImage ∧ suspiciousImage.Named 0 ∧
      ∃ p, suspiciousImage.segments[0]? = some p ∧ Table.Marked (Table.segmentRow p) := by
  have hdecode : (Decoder.decode { device := .ofBytes suspiciousFile }).1 = .ok suspiciousImage :=
    decode_suspiciousFile
  have hshown := suspicion_shown { device := .ofBytes suspiciousFile } suspiciousImage hdecode
  have hnamed : suspiciousImage.Named 0 := ⟨⟨0, 296, 40⟩, by decide, rfl⟩
  obtain ⟨later, -, hmark⟩ := hshown.marked 0 _ rfl
  exact ⟨hdecode, hshown, hnamed, _, rfl, hmark.2 hnamed⟩

end ElfAnatomy
