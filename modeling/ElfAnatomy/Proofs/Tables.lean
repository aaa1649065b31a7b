import ElfAnatomy.Proofs.Header

/-!
# Reading the tables

The file header gives the number of section headers, the index of the section with the names and
the number of program headers, or leaves them to the first section header, which is then read
beforehand.

* `SectionCount.unique`, `NamesIndex.unique`, `SegmentCount.unique` : there is one number each.
* `SectionTable.FirstRead` : what the reading ahead has found; it fixes both numbers
  (`sectionCount_iff`, `namesIndex_iff`).
* `SectionTable.outcome_read_eq_ok_iff`, `Image.outcome_readSegments_eq_ok_iff` : the tables that
  are read are those that stand in the file.
* `checkSections_eq_ok_iff` : the check of a section table accepts just the sound sections.
-/

namespace ElfAnatomy

variable {data : Bytes} {h : FileHeader}

/-! ### One number only

A file has one number of sections, one index of names and one number of segments. -/

theorem SectionCount.unique {n m : Nat} (hn : SectionCount data h n) (hm : SectionCount data h m) :
    n = m := by
  cases hn <;> cases hm <;> try first | rfl | contradiction
  -- both leave the number to the first section header
  rename_i first hfirst _ _ other hother
  cases Record.StandAt.unique hfirst hother rfl
  rfl

theorem NamesIndex.unique {n m : Nat} (hn : NamesIndex data h n) (hm : NamesIndex data h m) :
    n = m := by
  cases hn with
  | declared hx =>
    cases hm with
    | declared => rfl
    | deferred hx' htable => tauto
  | deferred hx htable first hfirst =>
    cases hm with
    | declared hx' => tauto
    | deferred _ _ other hother =>
      cases Record.StandAt.unique hfirst hother rfl
      rfl

theorem SegmentCount.unique {sections : List SectionHeader} {n m : Nat}
    (hn : SegmentCount h sections n) (hm : SegmentCount h sections m) : n = m := by
  cases hn with
  | declared hx =>
    cases hm with
    | declared => rfl
    | deferred hx' first rest hs =>
      subst hs
      exact absurd hx' (hx.resolve_right (List.cons_ne_nil _ _))
  | deferred hx first rest hs =>
    subst hs
    cases hm with
    | declared hx' => exact absurd hx (hx'.resolve_right (List.cons_ne_nil _ _))
    | deferred _ other _ hs' =>
      cases hs'
      rfl

namespace SectionTable

/-- The first section header, as read ahead; there is none if the file header defers nothing. -/
def FirstRead (data : Bytes) (h : FileHeader) : Option SectionHeader → Prop
  | some first => Record.StandAt h.byteOrder data h.shoff.toNat [first]
  | none => defers h = false

variable {first? : Option SectionHeader} {n : Nat}

theorem not_defers_iff :
    defers h = false ↔ h.shnum ≠ 0 ∧ h.shstrndx ≠ 0xffff := by
  simp [defers, FileHeader.deferredIndex]

theorem sectionCount_iff (hs : h.hasSections = true) (hf : FirstRead data h first?) :
    SectionCount data h n ↔ n = (count h first?).toNat := by
  rw [FileHeader.hasSections_iff] at hs
  have hcount : SectionCount data h (count h first?).toNat := by
    cases first? with
    | none =>
      -- nothing is deferred
      rw [count, UInt16.toNat_toUInt64]
      exact .declared (not_defers_iff.1 hf).1
    | some first =>
      by_cases hnum : h.shnum = 0
      · rw [count, if_pos hnum]
        exact .deferred hnum (fun hoff => hs ⟨hnum, hoff⟩) first hf
      · rw [count, if_neg hnum, UInt16.toNat_toUInt64]
        exact .declared hnum
  constructor
  · intro hn
    exact hn.unique hcount
  · rintro rfl
    exact hcount

theorem namesIndex_iff (hs : h.hasSections = true) (hf : FirstRead data h first?) :
    NamesIndex data h n ↔ n = (index h first?).toNat := by
  rw [FileHeader.hasSections_iff] at hs
  have hindex : NamesIndex data h (index h first?).toNat := by
    cases first? with
    | none =>
      rw [index, UInt16.toNat_toUInt32]
      exact .declared (.inl (not_defers_iff.1 hf).2)
    | some first =>
      by_cases hx : h.shstrndx = FileHeader.deferredIndex
      · rw [index, if_pos hx]
        exact .deferred hx (not_and_or.1 hs) first hf
      · rw [index, if_neg hx, UInt16.toNat_toUInt32]
        exact .declared (.inl hx)
  constructor
  · intro hn
    exact hn.unique hindex
  · rintro rfl
    exact hindex

theorem sectionCount_iff_of_no_table (hno : h.shnum = 0 ∧ h.shoff = 0) :
    SectionCount data h n ↔ n = 0 := by
  have hzero : SectionCount data h 0 := .absent hno.1 hno.2
  constructor
  · intro hn
    exact hn.unique hzero
  · rintro rfl
    exact hzero

theorem namesIndex_iff_of_no_table (hno : h.shnum = 0 ∧ h.shoff = 0) :
    NamesIndex data h n ↔ n = h.shstrndx.toNat := by
  have hindex : NamesIndex data h h.shstrndx.toNat := .declared (.inr hno)
  constructor
  · intro hn
    exact hn.unique hindex
  · rintro rfl
    exact hindex

theorem firstRead_of_outcome (hf : (readFirst h).outcome data = .ok first?) :
    FirstRead data h first? := by
  unfold readFirst at hf
  split at hf
  · rw [Plan.bind_eq, Plan.outcome_bind_eq_ok_iff] at hf
    obtain ⟨headers, hread, hhead⟩ := hf
    obtain ⟨-, hcount, hat⟩ := Plan.standAt_of_outcome_table hread
    obtain ⟨first, rfl⟩ := List.length_eq_one_iff.1 hcount
    cases hhead
    exact hat
  · rename_i hd
    cases hf
    exact eq_false_of_ne_true hd

/-- Reading ahead succeeds where a header declares sections and there is room for the first. -/
theorem exists_outcome_readFirst (hsize : h.shentsize = 64)
    (hroom : h.shoff.toNat + 64 ≤ data.length) :
    ∃ first?, (readFirst h).outcome data = .ok first? := by
  unfold readFirst
  split
  · obtain ⟨headers, hcount, hat⟩ :=
      Record.exists_standAt SectionHeader h.byteOrder 1 hroom
    refine ⟨headers.head?, ?_⟩
    rw [Plan.bind_eq, Plan.outcome_bind_eq_ok_iff]
    refine ⟨headers, (Plan.outcome_table_eq_ok_iff ?_).2 ⟨?_, hcount, hat⟩, rfl⟩
    · rw [hcount]
      decide
    · rw [hsize]
      rfl
  · exact ⟨none, rfl⟩

/-- The section table that is read stands in the file. -/
theorem standAt_of_outcome_read {t : SectionTable} (ht : (read h).outcome data = .ok t) :
    SectionCount data h t.headers.length ∧
      Record.StandAt h.byteOrder data h.shoff.toNat t.headers ∧
      NamesIndex data h t.namesIndex.toNat := by
  unfold read at ht
  split at ht
  · rename_i hs
    simp only [Plan.bind_eq, Plan.outcome_bind_eq_ok_iff, Plan.pure_eq, Plan.outcome_done,
      Except.ok.injEq] at ht
    obtain ⟨first?, hfirst, headers, hread, rfl⟩ := ht
    have hf := firstRead_of_outcome hfirst
    obtain ⟨-, hcount, hat⟩ := Plan.standAt_of_outcome_table hread
    exact ⟨(sectionCount_iff hs hf).2 hcount, hat, (namesIndex_iff hs hf).2 rfl⟩
  · rename_i hs
    rw [FileHeader.hasSections_iff, not_not] at hs
    cases ht
    refine ⟨(sectionCount_iff_of_no_table hs).2 rfl, ?_, (namesIndex_iff_of_no_table hs).2 ?_⟩
    · rw [hs.2]
      exact Bytes.slice?_eq_some_iff.2 ⟨Nat.zero_le _, rfl⟩
    · rw [UInt16.toNat_toUInt32]

/-- **The section table that is read is the one that stands in the file.**  Its size has to be a
word. -/
theorem outcome_read_eq_ok_iff {t : SectionTable} (hfit : 64 * t.headers.length < UInt64.size)
    (hh : HeaderIn data h) :
    (read h).outcome data = .ok t ↔
      SectionCount data h t.headers.length ∧
        Record.StandAt h.byteOrder data h.shoff.toNat t.headers ∧
        NamesIndex data h t.namesIndex.toNat := by
  refine ⟨standAt_of_outcome_read, fun ⟨hcount, hat, hindex⟩ => ?_⟩
  unfold read
  split
  · rename_i hs
    have hno := FileHeader.hasSections_iff.1 hs
    obtain ⟨hsize, hroom⟩ := hh.sections.resolve_left hno
    have hfirstRoom : h.shoff.toNat + 64 ≤ data.length := by omega
    obtain ⟨first?, hfirst⟩ := exists_outcome_readFirst hsize hfirstRoom
    have hf := firstRead_of_outcome hfirst
    have hread : (readHeaders h (count h first?)).outcome data = .ok t.headers := by
      refine (Plan.outcome_table_eq_ok_iff hfit).2 ⟨?_, (sectionCount_iff hs hf).1 hcount, hat⟩
      rw [hsize]
      rfl
    simp only [Plan.bind_eq, Plan.outcome_bind_eq_ok_iff, Plan.pure_eq, Plan.outcome_done,
      Except.ok.injEq]
    refine ⟨first?, hfirst, t.headers, hread, ?_⟩
    rw [← UInt32.toNat.inj ((namesIndex_iff hs hf).1 hindex)]
  · rename_i hs
    rw [FileHeader.hasSections_iff, not_not] at hs
    have hnil : t.headers = [] :=
      List.eq_nil_of_length_eq_zero ((sectionCount_iff_of_no_table hs).1 hcount)
    have hnames : t.namesIndex = h.shstrndx.toUInt32 := by
      apply UInt32.toNat.inj
      rw [(namesIndex_iff_of_no_table hs).1 hindex, UInt16.toNat_toUInt32]
    rw [← hnil, ← hnames]
    rfl

end SectionTable

/-! ### Segments -/

namespace Image

variable {sections : List SectionHeader} {segments : List ProgramHeader}

theorem segmentCount_iff {n : Nat} :
    SegmentCount h sections n ↔ n = (segmentCount h sections).toNat := by
  have hcount : SegmentCount h sections (segmentCount h sections).toNat := by
    cases sections with
    | nil =>
      rw [segmentCount, List.head?_nil, UInt16.toNat_toUInt64]
      exact .declared (.inr rfl)
    | cons first rest =>
      by_cases hx : h.phnum = FileHeader.deferredSegments
      · simp only [segmentCount, List.head?_cons, if_pos hx, UInt32.toNat_toUInt64]
        exact .deferred hx first rest rfl
      · simp only [segmentCount, List.head?_cons, if_neg hx, UInt16.toNat_toUInt64]
        exact .declared (.inl hx)
  constructor
  · intro hn
    exact hn.unique hcount
  · rintro rfl
    exact hcount

theorem segmentCount_eq_zero (hnum : h.phnum = 0) : segmentCount h sections = 0 := by
  unfold segmentCount
  split <;> simp [hnum, FileHeader.deferredSegments]

/-- The number of segments has at most 32 bits, wherever it comes from. -/
theorem toNat_segmentCount_lt (h : FileHeader) (sections : List SectionHeader) :
    (segmentCount h sections).toNat < 2 ^ 32 := by
  have hdeclared : h.phnum.toUInt64.toNat < 2 ^ 32 := by
    rw [UInt16.toNat_toUInt64]
    exact Nat.lt_trans h.phnum.toNat_lt (by decide)
  unfold segmentCount
  split
  · split
    · rw [UInt32.toNat_toUInt64]
      exact UInt32.toNat_lt _
    · exact hdeclared
  · exact hdeclared

/-- The program headers that are read stand in the file. -/
theorem standAt_of_outcome_readSegments
    (hs : (readSegments h sections).outcome data = .ok segments) :
    SegmentCount h sections segments.length ∧
      (segments = [] ∨ Record.StandAt h.byteOrder data h.phoff.toNat segments) := by
  simp only [readSegments] at hs
  split at hs
  · rename_i h0
    cases hs
    exact ⟨segmentCount_iff.2 (by rw [h0]; rfl), .inl rfl⟩
  · obtain ⟨-, hcount, hat⟩ := Plan.standAt_of_outcome_table hs
    exact ⟨segmentCount_iff.2 hcount, .inr hat⟩

/-- **The program headers that are read are those that stand in the file.** -/
theorem outcome_readSegments_eq_ok_iff (hh : HeaderIn data h) :
    (readSegments h sections).outcome data = .ok segments ↔
      SegmentCount h sections segments.length ∧
        (segments = [] ∨ Record.StandAt h.byteOrder data h.phoff.toNat segments) := by
  refine ⟨standAt_of_outcome_readSegments, fun ⟨hcount, hat⟩ => ?_⟩
  rw [segmentCount_iff] at hcount
  simp only [readSegments]
  split
  · rename_i h0
    rw [h0] at hcount
    rw [List.eq_nil_of_length_eq_zero hcount]
    rfl
  · rename_i h0
    have hne : segments ≠ [] := by
      rintro rfl
      exact h0 (UInt64.toNat.inj hcount.symm)
    have hnum : h.phnum ≠ 0 := fun hz => h0 (segmentCount_eq_zero hz)
    have hsize := (hh.segments.resolve_left hnum).1
    have hfew := toNat_segmentCount_lt h sections
    refine (Plan.outcome_table_eq_ok_iff ?_).2 ⟨?_, hcount, hat.resolve_left hne⟩
    · simp only [Record.size, UInt64.size]
      omega
    · rw [hsize]
      rfl

end Image

/-! ### Checks -/

namespace SectionHeader

variable {s : SectionHeader}

theorem occupiesFile_iff :
    s.occupiesFile = true ↔ s.type ≠ SectionType.null ∧ s.type ≠ SectionType.nobits := by
  simp [occupiesFile, and_comm]

theorem check_eq_ok_iff {count length : Nat} {u : Unit} :
    s.check count length = .ok u ↔ s.Sound count length := by
  have hlink : s.hasSectionLink = true ↔ s.type ∈ SectionType.linked := by
    simp [hasSectionLink]
  simp only [check, bind_eq_ok_iff, require_eq_ok_iff, exists_const, hlink]
  have hregion : (if s.occupiesFile then s.region.check length else pure ()) = .ok u ↔
      (s.type ≠ SectionType.null → s.type ≠ SectionType.nobits →
        s.offset.toNat + s.size.toNat ≤ length) := by
    rw [← and_imp, ← occupiesFile_iff]
    split
    · rename_i ho
      simp [ho, region, Region.stop]
    · rename_i ho
      simp [ho, pure, Except.pure]
  rw [hregion]
  constructor
  · rintro ⟨hl, hr⟩
    exact ⟨hl, hr⟩
  · rintro ⟨hl, hr⟩
    exact ⟨hl, hr⟩

end SectionHeader

/-- **A section table passes its check exactly if all of its sections are sound.** -/
theorem checkSections_eq_ok_iff {sections : List SectionHeader} {length : Nat} {u : Unit} :
    checkSections sections length = .ok u ↔ ∀ s ∈ sections, s.Sound sections.length length := by
  simp only [checkSections, forM_eq_ok_iff, SectionHeader.check_eq_ok_iff]

end ElfAnatomy
