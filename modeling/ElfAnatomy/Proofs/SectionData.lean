import ElfAnatomy.Proofs.Dependencies
import ElfAnatomy.Proofs.Measured
import ElfAnatomy.Proofs.Safety

/-!
# Section bytes, read afresh

An image keeps the headers of its sections and not their bytes.  These are read when somebody asks
for them, from what the file holds by then, with no check but the one of the region.

* `Device.Honest` : a device that refuses nothing and reports the length that it has.
* `Source.Whole` : a source that has measured all the bytes it delivers.
* `Plan.fst_perform_of_whole` : a plan carried out on such a source comes to its outcome on the
  content.
* `SectionHeader.outcome_contents_eq_error_iff` : how the bytes of a section fail to come.
* `Image.sectionByName?_eq_none_iff`, `Image.exists_sectionByName?` : look-ups by name.
* `staysReadable_of_decode` : **what an image says of its sections can be asked of any later
  content of the file.**
-/

namespace ElfAnatomy

/-! ### Honest devices -/

/-- The device refuses nothing and reports the length that it has.  It may deliver in pieces. -/
structure Device.Honest (d : Device) : Prop extends d.Willing where
  length : d.length = d.content.length

theorem Device.honest_ofBytes (content : Bytes) : (Device.ofBytes content).Honest :=
  { reads := rfl, seeks := rfl, chunk := nofun, length := rfl }

/-- The source has measured all the bytes that its device delivers, and the device refuses
nothing. -/
structure Source.Whole (s : Source) : Prop where
  willing : s.device.Willing
  length : s.length = s.device.content.length

variable {d device : Device} {s : Source}

theorem Source.whole_of_attach (hd : d.Honest) (hs : attach d = (.ok s, device)) : s.Whole := by
  obtain ⟨hlength, hkept⟩ := of_attach hs
  exact ⟨hd.toWilling.kept hkept, by rw [hlength, hkept.content, hd.length]⟩

/-- A source stays whole, whatever is asked of it. -/
theorem Source.Whole.perform {α : Type} (hs : s.Whole) (p : Plan α) : (p.perform s).2.Whole := by
  have hkept := kept_run p ⟨s, .unopened⟩
  refine ⟨hs.willing.kept hkept, ?_⟩
  rw [Plan.perform, p.length_run, hkept.content, hs.length]

/-- **A plan carried out on a whole source comes to its outcome on the content.** -/
theorem Plan.fst_perform_of_whole {α : Type} (hs : s.Whole) (p : Plan α) :
    (p.perform s).1 = p.outcome s.device.content := by
  have hshows : s.Shows s.device.content := ⟨hs.length, .inl (List.prefix_refl _)⟩
  obtain ⟨t, _, -, hplain⟩ := attach_ofBytes s.device.content
  obtain ⟨after, -, hrun⟩ := p.run_of_plain ⟨t, .unopened⟩ hplain
  -- the device cannot be told apart from one that delivers its content at once
  rcases p.run_of_simulates (Source.simulates_willing s.device.content) ⟨s, .unopened⟩
    ⟨t, .unopened⟩ ⟨hshows, hplain, hs.willing, List.prefix_refl _⟩ rfl with
    ⟨_, hF, -⟩ | ⟨hsame, -⟩
  · exact hF.elim
  · rw [Plan.perform, hsame, hrun]

theorem Plan.fst_perform_of_honest {α : Type} (hd : d.Honest)
    (hs : Source.attach d = (.ok s, device)) (p : Plan α) :
    (p.perform s).1 = p.outcome d.content := by
  rw [p.fst_perform_of_whole (Source.whole_of_attach hd hs), (Source.of_attach hs).2.content]

/-! ### The bytes of a section -/

namespace SectionHeader

variable {s : SectionHeader} {data : Bytes}

theorem outcome_contents_of_absent
    (h : s.type = SectionType.null ∨ s.type = SectionType.nobits) :
    s.contents.outcome data = .ok [] := by
  have ho : ¬s.occupiesFile = true := by
    rw [occupiesFile_iff]
    rintro ⟨hnull, hnobits⟩
    exact h.elim hnull hnobits
  rw [contents, if_neg ho]
  rfl

/-- The bytes of a section fail to come only if it has some and they end past the file. -/
theorem outcome_contents_eq_error_iff {e : DecodeError} :
    s.contents.outcome data = .error e ↔
      s.occupiesFile = true ∧ data.length < s.region.stop ∧
        e = .truncatedTable s.offset s.size data.length := by
  unfold contents
  split
  · rename_i ho
    rw [Plan.outcome_read_eq_error_iff]
    simp [ho, region]
  · rename_i ho
    simp [ho]

/-- A file that goes on where the other one ends has the same section bytes. -/
theorem Sound.bytesIn_of_prefix {count : Nat} {content : Bytes} (hs : s.Sound count data.length)
    (hpre : data <+: content) : s.bytesIn content = s.bytesIn data := by
  unfold bytesIn
  split
  · rename_i ho
    have hslice := Bytes.slice?_of_prefix hpre (Bytes.slice?_eq_some_iff.2 ⟨hs.stop_le ho, rfl⟩)
    exact (Bytes.slice?_eq_some_iff.1 hslice).2
  · rfl

theorem Sound.mono {count n m : Nat} (hs : s.Sound count n) (h : n ≤ m) : s.Sound count m :=
  ⟨hs.link, fun hnull hnobits => Nat.le_trans (hs.region hnull hnobits) h⟩

end SectionHeader

namespace Image

variable {image : Image} {data : Bytes} {i : Nat} {s : SectionHeader} {name : String}

/-- An index outside the table is refused without a call. -/
theorem sectionData_of_le (d : Device) (h : image.sections.length ≤ i) :
    image.sectionData d i = (.error (.badSectionIndex i image.sections.length), d) := by
  rw [sectionData, List.getElem?_eq_none h]

/-- From an honest device a section has the bytes that the content has for it. -/
theorem fst_sectionData_of_honest (hd : d.Honest) (hs : image.sections[i]? = some s) :
    (image.sectionData d i).1 = s.contents.outcome d.content := by
  obtain ⟨source, device, hattach⟩ := Source.exists_attach hd.toWilling
  rw [sectionData, hs]
  simp only [hattach]
  exact Plan.fst_perform_of_honest hd hattach s.contents

/-! ### Look-ups by name -/

theorem sectionByName?_eq_none_iff (hnames : image.names.length = image.sections.length) :
    image.sectionByName? name = none ↔ ∀ i, image.sectionName? i ≠ some name := by
  constructor
  · intro h i hi
    obtain ⟨hlt, -⟩ := List.getElem?_eq_some_iff.1 hi
    cases hfind : image.names.findIdx? fun n => n == name with
    | none =>
      have := List.findIdx?_eq_none_iff.1 hfind name (List.mem_of_getElem? hi)
      simp at this
    | some j =>
      obtain ⟨hj, -⟩ := List.findIdx?_eq_some_iff_getElem.1 hfind
      simp [sectionByName?, hfind, hnames ▸ hj] at h
  · intro h
    have hfind : image.names.findIdx? (fun n => n == name) = none := by
      rw [List.findIdx?_eq_none_iff]
      intro n hn
      obtain ⟨i, hi⟩ := List.getElem?_of_mem hn
      rw [beq_eq_false_iff_ne]
      rintro rfl
      exact h i hi
    rw [sectionByName?, hfind, Option.bind_none]

/-- The section that is found by its name is the first one of that name. -/
theorem exists_sectionByName? (hnames : image.names.length = image.sections.length)
    (h : ∃ i, image.sectionName? i = some name) :
    ∃ i s, image.sectionName? i = some name ∧ (∀ j < i, image.sectionName? j ≠ some name) ∧
      image.sections[i]? = some s ∧ image.sectionByName? name = some (i, s) := by
  cases hfound : image.sectionByName? name with
  | none =>
    obtain ⟨i, hi⟩ := h
    exact absurd hi ((sectionByName?_eq_none_iff hnames).1 hfound i)
  | some found =>
    obtain ⟨i, hi, hs⟩ := Option.bind_eq_some_iff.1 hfound
    obtain ⟨s, hsection, rfl⟩ := Option.map_eq_some_iff.1 hs
    obtain ⟨hlt, hthis, hbefore⟩ := List.findIdx?_eq_some_iff_getElem.1 hi
    refine ⟨i, s, ?_, ?_, hsection, rfl⟩
    · rw [sectionName?, List.getElem?_eq_getElem hlt, beq_iff_eq.1 hthis]
    · intro j hj heq
      obtain ⟨hlt', hname⟩ := List.getElem?_eq_some_iff.1 heq
      exact hbefore j hj (beq_iff_eq.2 hname)

/-! ### Reading by index and by name -/

theorem sectionData_eq_badSectionIndex_iff (hd : d.Honest) (i : Nat) :
    (image.sectionData d i).1 = .error (.badSectionIndex i image.sections.length) ↔
      image.sections.length ≤ i := by
  constructor
  · intro h
    by_contra hlt
    have hs : image.sections[i]? = some image.sections[i] :=
      List.getElem?_eq_getElem (Nat.not_le.1 hlt)
    rw [fst_sectionData_of_honest hd hs] at h
    obtain ⟨-, -, he⟩ := SectionHeader.outcome_contents_eq_error_iff.1 h
    cases he
  · intro h
    rw [sectionData_of_le d h]

/-- Reading by name is reading by the index that the name is found at. -/
theorem sectionDataByName_of_found (d : Device) (hfound : image.sectionByName? name = some (i, s)) :
    image.sectionDataByName d name =
      ((image.sectionData d i).1.map some, (image.sectionData d i).2) := by
  rw [sectionDataByName, hfound]

theorem sectionDataByName_of_not_found (d : Device) (hnone : image.sectionByName? name = none) :
    image.sectionDataByName d name = (.ok none, d) := by
  rw [sectionDataByName, hnone]

/-- The bytes of a section are no answer of `none`. -/
theorem sectionDataByName_eq_none_iff (hnames : image.names.length = image.sections.length)
    (d : Device) :
    (image.sectionDataByName d name).1 = .ok none ↔ ∀ i, image.sectionName? i ≠ some name := by
  rw [← sectionByName?_eq_none_iff hnames]
  constructor
  · intro h
    cases hfound : image.sectionByName? name with
    | none => rfl
    | some found =>
      rw [sectionDataByName_of_found d hfound] at h
      obtain ⟨bytes, -, hbytes⟩ := map_eq_ok_iff.1 h
      cases hbytes
  · intro h
    rw [sectionDataByName_of_not_found d h]

/-! ### Images of a file -/

/-- What the sections of an image of `data` are to those who ask for their bytes later on, when a
device holds `data` or anything else. -/
structure StaysReadable (image : Image) (data : Bytes) : Prop where
  /-- An index is refused exactly if it lies outside the section table. -/
  refused_iff : ∀ d : Device, d.Honest → ∀ i,
    ((image.sectionData d i).1 = .error (.badSectionIndex i image.sections.length) ↔
      image.sections.length ≤ i)
  /-- An inactive section, or one without bytes in the file, is empty. -/
  empty : ∀ d : Device, d.Honest → ∀ i s, image.sections[i]? = some s →
    s.type = SectionType.null ∨ s.type = SectionType.nobits → (image.sectionData d i).1 = .ok []
  /-- Any other section has exactly the bytes of its region in the content, -/
  present : ∀ d : Device, d.Honest → ∀ i s, image.sections[i]? = some s →
    s.type ≠ SectionType.null → s.type ≠ SectionType.nobits →
    s.offset.toNat + s.size.toNat ≤ d.content.length →
    (image.sectionData d i).1 = .ok ((d.content.drop s.offset.toNat).take s.size.toNat)
  /-- unless the region ends past the content. -/
  truncated : ∀ d : Device, d.Honest → ∀ i s, image.sections[i]? = some s →
    s.type ≠ SectionType.null → s.type ≠ SectionType.nobits →
    d.content.length < s.offset.toNat + s.size.toNat →
    (image.sectionData d i).1 = .error (.truncatedTable s.offset s.size d.content.length)
  /-- A file that is unchanged or extended gives every section the bytes that it had. -/
  extended : ∀ d : Device, d.Honest → data <+: d.content → ∀ i s, image.sections[i]? = some s →
    (image.sectionData d i).1 = .ok (s.bytesIn data)
  /-- Every section has a name. -/
  named : image.names.length = image.sections.length
  /-- Nothing is read by a name exactly if no section has it, whatever the device does; -/
  unnamed_iff : ∀ (d : Device) (name : String),
    (image.sectionDataByName d name).1 = .ok none ↔ ∀ i, image.sectionName? i ≠ some name
  /-- the device is left untouched then. -/
  untouched : ∀ (d : Device) (name : String), (∀ i, image.sectionName? i ≠ some name) →
    image.sectionDataByName d name = (.ok none, d)
  /-- A name that sections have stands for the first one of them, in the look-up of its header as
  in the reading of its bytes. -/
  byName : ∀ (d : Device) (name : String), (∃ i, image.sectionName? i = some name) →
    ∃ i s, image.sectionName? i = some name ∧ (∀ j < i, image.sectionName? j ≠ some name) ∧
      image.sections[i]? = some s ∧ image.sectionByName? name = some (i, s) ∧
      image.sectionDataByName d name =
        ((image.sectionData d i).1.map some, (image.sectionData d i).2)

end Image

/-- **The sections of a decoded image stay readable**, whatever becomes of the file. -/
theorem staysReadable_of_decode (data : Bytes) (image : Image) (h : decode data = .ok image) :
    image.StaysReadable data := by
  have hnames : image.names.length = image.sections.length := Decoder.length_names h
  have hsound := (imageIn_of_decode h).sound
  exact {
    refused_iff := fun d hd i => Image.sectionData_eq_badSectionIndex_iff hd i
    empty := by
      intro d hd i s hs htype
      rw [Image.fst_sectionData_of_honest hd hs]
      exact SectionHeader.outcome_contents_of_absent htype
    present := by
      intro d hd i s hs hnull hnobits hin
      rw [Image.fst_sectionData_of_honest hd hs]
      have ho := SectionHeader.occupiesFile_iff.2 ⟨hnull, hnobits⟩
      rw [SectionHeader.outcome_contents_eq_ok_iff, SectionHeader.bytesIn, if_pos ho]
      exact ⟨fun _ => hin, rfl⟩
    truncated := by
      intro d hd i s hs hnull hnobits hout
      rw [Image.fst_sectionData_of_honest hd hs]
      have ho := SectionHeader.occupiesFile_iff.2 ⟨hnull, hnobits⟩
      exact SectionHeader.outcome_contents_eq_error_iff.2 ⟨ho, hout, rfl⟩
    extended := by
      intro d hd hpre i s hs
      have hs' := hsound s (List.mem_of_getElem? hs)
      rw [Image.fst_sectionData_of_honest hd hs, (hs'.mono hpre.length_le).outcome_contents,
        hs'.bytesIn_of_prefix hpre]
    named := hnames
    unnamed_iff := fun d name => Image.sectionDataByName_eq_none_iff hnames d
    untouched := by
      intro d name hno
      exact Image.sectionDataByName_of_not_found d
        ((Image.sectionByName?_eq_none_iff hnames).2 hno)
    byName := by
      intro d name hsome
      obtain ⟨i, s, hthis, hbefore, hs, hfound⟩ := Image.exists_sectionByName? hnames hsome
      exact ⟨i, s, hthis, hbefore, hs, hfound, Image.sectionDataByName_of_found d hfound⟩ }

/-- A file of three sections, the last of which is found by its name: its bytes are there to begin
with, and are cut when the file loses its end. -/
theorem staysReadable_linkedFile :
    decode linkedFile = .ok linkedImage ∧ linkedImage.StaysReadable linkedFile ∧
      (linkedImage.sectionData (.ofBytes linkedFile) 2).1 =
        .ok (linkedImage.sections[2].bytesIn linkedFile) ∧
      (linkedImage.sectionDataByName (.ofBytes (linkedFile.take 240)) ".dynstr").1 =
        .error (.truncatedTable 232 27 240) := by
  have h := staysReadable_of_decode linkedFile linkedImage decode_linkedFile
  refine ⟨decode_linkedFile, h, ?_, by decide +kernel⟩
  exact h.extended _ (Device.honest_ofBytes linkedFile) (List.prefix_refl _) 2 _ rfl

end ElfAnatomy
