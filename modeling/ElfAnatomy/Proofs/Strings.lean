import ElfAnatomy.Proofs.Tables

/-!
# Reading the strings

Section names, the interpreter path and the strings of the dynamic section are looked up in string
tables, which are found through indices, offsets and addresses.

* `SectionTable.outcome_readNames_eq_ok_iff` : the section names.
* `Image.outcome_readInterpreter_eq_ok_iff` : the interpreter path.
* `map_header_locateAddress?` : the section that an address leads to.
* `Linkage.outcome_read_eq_ok_iff` : the dynamic section, with everything it refers to.

The tables are supposed to be sound where a string table is read through them.
-/

namespace ElfAnatomy

variable {data : Bytes}

/-! ### Section bytes -/

namespace SectionHeader

variable {s : SectionHeader}

theorem outcome_contents_eq_ok_iff {bytes : Bytes} :
    s.contents.outcome data = .ok bytes ↔
      (s.occupiesFile = true → s.region.stop ≤ data.length) ∧ bytes = s.bytesIn data := by
  unfold contents bytesIn
  split
  · rename_i ho
    rw [Plan.outcome_read_eq_ok_iff, Bytes.slice?_eq_some_iff]
    simp [ho, region, Region.stop, eq_comm]
  · rename_i ho
    simp [ho, eq_comm]

theorem Sound.stop_le {count length : Nat} (hs : s.Sound count length)
    (ho : s.occupiesFile = true) : s.region.stop ≤ length :=
  hs.region (occupiesFile_iff.1 ho).1 (occupiesFile_iff.1 ho).2

theorem Sound.outcome_contents {count : Nat} (hs : s.Sound count data.length) :
    s.contents.outcome data = .ok (s.bytesIn data) :=
  outcome_contents_eq_ok_iff.2 ⟨hs.stop_le, rfl⟩

end SectionHeader

/-! ### Section names -/

theorem StringTable.resolve_eq_ok_iff_holds {t : StringTable} {offset : UInt64} {text : String} :
    t.resolve offset = .ok text ↔ t.Holds offset.toNat text :=
  resolve_eq_ok_iff

namespace SectionTable

theorem nameOf_eq_ok_iff {strings : StringTable} {s : SectionHeader} {name : String} :
    nameOf strings s = .ok name ↔ NameOf strings s name := by
  unfold nameOf
  split
  · rename_i hs
    constructor
    · intro h
      cases h
      exact .empty hs.1 hs.2
    · rintro (- | ⟨_, hno, -⟩)
      · rfl
      · exact absurd hs hno
  · rename_i hs
    rw [StringTable.resolve_eq_ok_iff_holds, UInt32.toNat_toUInt64]
    constructor
    · exact .held name hs
    · rintro (⟨htype, hname⟩ | ⟨_, -, htext⟩)
      · exact absurd ⟨htype, hname⟩ hs
      · exact htext

/-- **The section names that are read are those that stand in the file.** -/
theorem outcome_readNames_eq_ok_iff {t : SectionTable} {names : List String}
    (hsound : ∀ s ∈ t.headers, s.Sound t.headers.length data.length) :
    t.readNames.outcome data = .ok names ↔
      NamesIn data t.headers t.namesIndex.toNat names := by
  have hzero : t.namesIndex = 0 ↔ t.namesIndex.toNat = 0 := UInt32.toNat_inj.symm
  unfold readNames
  split
  · rename_i h0
    rw [hzero] at h0
    constructor
    · intro h
      cases h
      exact .absent h0
    · rintro (- | ⟨hk, -⟩)
      · rfl
      · exact absurd h0 hk
  · rename_i h0
    rw [hzero] at h0
    cases hholder : t.headers[t.namesIndex.toNat]? with
    | none =>
      simp only [Plan.outcome_done, reduceCtorEq, false_iff]
      rintro (hk | ⟨-, holder, hh, -⟩)
      · exact h0 hk
      · rw [hholder] at hh
        cases hh
    | some holder =>
      have hin := hsound holder (List.mem_of_getElem? hholder)
      simp only [Plan.bind_eq, Plan.outcome_bind, hin.outcome_contents, Plan.lift_eq,
        Plan.outcome_done, namesOf, mapM_eq_ok_iff, nameOf_eq_ok_iff]
      constructor
      · exact .held h0 holder hholder names
      · rintro (hk | ⟨-, holder', hh, _, hnames⟩)
        · exact absurd hk h0
        · rw [hholder] at hh
          cases hh
          exact hnames

end SectionTable

/-! ### The interpreter -/

/-- **The interpreter path that is read is the one that stands in the file.** -/
theorem Image.outcome_readInterpreter_eq_ok_iff {segments : List ProgramHeader}
    {path? : Option String} :
    (readInterpreter segments).outcome data = .ok path? ↔
      InterpreterIn data segments path? := by
  unfold readInterpreter
  cases hp : segments.find? fun p => p.type == SegmentType.interp with
  | none =>
    have hnone : ∀ p ∈ segments, p.type ≠ SegmentType.interp := by
      simpa using hp
    constructor
    · intro h
      cases h
      exact .absent hnone
    · rintro (- | ⟨p, hp', -⟩)
      · rfl
      · rw [hp] at hp'
        cases hp'
  | some p =>
    simp only [Plan.bind_eq, Plan.outcome_bind_eq_ok_iff, Plan.outcome_read_eq_ok_iff,
      Plan.lift_eq, Plan.pure_eq, Plan.outcome_done, StringTable.resolve_eq_ok_iff_holds,
      Bytes.slice?_eq_some_iff]
    constructor
    · rintro ⟨bytes, ⟨hin, rfl⟩, path, hpath, hok⟩
      cases hok
      exact .held p hp hin path hpath
    · rintro (hno | ⟨p', hp', hin, path, hpath⟩)
      · have hmem := List.mem_of_find?_eq_some hp
        have htype := List.find?_some hp
        exact absurd (by simpa using htype) (hno p hmem)
      · rw [hp] at hp'
        cases hp'
        exact ⟨_, ⟨hin, rfl⟩, path, hpath, rfl⟩

/-! ### Looking up an address -/

theorem map_snd_firstOfType? (sections : List SectionHeader) (type : UInt32) :
    (firstOfType? sections type).map Prod.snd = sections.find? fun s => s.type == type := by
  rw [firstOfType?, Option.map_map]
  conv => rhs; rw [← List.zipIdx_map_fst 0 sections, List.find?_map]
  rfl

theorem SectionHeader.containsAddr_iff {s : SectionHeader} {addr : UInt64} :
    s.containsAddr addr = true ↔
      s.addr ≠ 0 ∧ s.addr.toNat ≤ addr.toNat ∧ addr.toNat < s.addr.toNat + s.size.toNat := by
  simp only [containsAddr, Bool.and_eq_true, bne_iff_ne, ne_eq, decide_eq_true_eq, and_assoc]
  refine and_congr_right fun _ => ?_
  rw [UInt64.le_iff_toNat_le]
  refine and_congr_right fun hle => ?_
  rw [UInt64.lt_iff_toNat_lt, UInt64.toNat_sub_of_le _ _ (UInt64.le_iff_toNat_le.2 hle)]
  omega

/-- An address leads to the section that starts there, or else to one that contains it. -/
theorem map_header_locateAddress? (sections : List SectionHeader) (addr : UInt64) :
    (locateAddress? sections addr).map Location.header =
      (startingAt? sections addr <|> containing? sections addr) := by
  -- the indices only ride along, so both searches are searches of the list itself
  have key : ∀ p : SectionHeader → Bool,
      ((sections.zipIdx.filter fun q => q.1.occupiesFile).find? fun q => p q.1).map Prod.fst =
        sections.find? fun s => s.occupiesFile ∧ p s := by
    intro p
    rw [List.find?_filter]
    conv => rhs; rw [← List.zipIdx_map_fst 0 sections, List.find?_map]
    rfl
  have hs : startingAt? sections addr =
      sections.find? fun s => s.occupiesFile ∧ (s.addr == addr && s.addr != 0) := by
    simp [startingAt?]
  have hc : containing? sections addr =
      sections.find? fun s => s.occupiesFile ∧ s.containsAddr addr := by
    simp only [containing?, SectionHeader.containsAddr_iff]
  rw [hs, hc, ← key, ← key, locateAddress?, Option.map_map]
  generalize List.find? _ _ = first
  generalize List.find? _ _ = second
  cases first <;> rfl

/-- The section that an address leads to is in the file, and starts at or before the address. -/
theorem of_locateAddress? {sections : List SectionHeader} {addr : UInt64} {place : Location}
    (h : locateAddress? sections addr = some place) :
    place.header ∈ sections ∧ place.header.occupiesFile = true ∧
      place.header.addr.toNat ≤ addr.toNat ∧
      place.offset.toNat = addr.toNat - place.header.addr.toNat := by
  obtain ⟨q, hq, rfl⟩ := Option.map_eq_some_iff.1 h
  rw [Option.orElse_eq_orElse, Option.orElse_eq_or, Option.or_eq_some_iff] at hq
  have hmem : q ∈ sections.zipIdx.filter fun p => p.1.occupiesFile := by
    rcases hq with hq | ⟨-, hq⟩
    · exact List.mem_of_find?_eq_some hq
    · exact List.mem_of_find?_eq_some hq
  have hle : q.1.addr ≤ addr := by
    rcases hq with hq | ⟨-, hq⟩
    · have := List.find?_some hq
      simp only [Bool.and_eq_true, beq_iff_eq] at this
      rw [this.1]
      exact UInt64.le_refl _
    · have := List.find?_some hq
      rw [SectionHeader.containsAddr_iff] at this
      exact UInt64.le_iff_toNat_le.2 this.2.1
  obtain ⟨hmem, ho⟩ := List.mem_filter.1 hmem
  exact ⟨List.fst_mem_of_mem_zipIdx hmem, ho, UInt64.le_iff_toNat_le.1 hle,
    UInt64.toNat_sub_of_le _ _ hle⟩

/-! ### Dynamic linkage -/

namespace Linkage

variable {order : ByteOrder} {sections : List SectionHeader} {entries : List DynamicEntry}

theorem declared_eq_iff {s : SectionHeader} :
    (if s.entsize = 0 then entrySize else s.entsize) = entrySize ↔
      s.entsize = 0 ∨ s.entsize = 16 := by
  by_cases h0 : s.entsize = 0 <;> simp [h0, entrySize]

theorem toNat_size_div {size : UInt64} : (size / entrySize).toNat = size.toNat / 16 :=
  UInt64.toNat_div ..

theorem size_mod_eq_zero_iff {size : UInt64} : size % entrySize = 0 ↔ size.toNat % 16 = 0 := by
  rw [← UInt64.toNat_inj, UInt64.toNat_mod]
  rfl

/-- The steps of reading the entries. -/
theorem outcome_readEntries_eq_ok_iff_exists {s : SectionHeader} :
    (readEntries order s).outcome data = .ok entries ↔
      (s.entsize = 0 ∨ s.entsize = 16) ∧ s.size.toNat % 16 = 0 ∧
        ∃ all, (Plan.table DynamicEntry order s.offset (s.size / entrySize)
            (if s.entsize = 0 then entrySize else s.entsize)).outcome data = .ok all ∧
          DynamicEntry.upToNull all = entries := by
  simp only [readEntries, Plan.bind_eq, Plan.lift_eq, Plan.pure_eq, Plan.outcome_bind_eq_ok_iff,
    Plan.outcome_done, Plan.outcome_length, Except.ok.injEq, exists_eq_left', exists_const,
    require_eq_ok_iff, declared_eq_iff, size_mod_eq_zero_iff]

/-- The entries that are read are all that stand in the section, or those up to the first null
entry. -/
theorem entriesIn_of_outcome_readEntries {s : SectionHeader}
    (h : (readEntries order s).outcome data = .ok entries) :
    ∃ all, EntriesIn data order s all ∧ entries = DynamicEntry.upToNull all := by
  obtain ⟨hsize, hwhole, all, htable, rfl⟩ := outcome_readEntries_eq_ok_iff_exists.1 h
  obtain ⟨-, hcount, hat⟩ := Plan.standAt_of_outcome_table htable
  rw [toNat_size_div] at hcount
  exact ⟨all, ⟨hsize, by omega, hat⟩, rfl⟩

/-- **The entries that are read are those that stand in the section**, up to the first null
entry. -/
theorem outcome_readEntries_eq_ok_iff {s : SectionHeader} :
    (readEntries order s).outcome data = .ok entries ↔
      ∃ all, EntriesIn data order s all ∧ entries = DynamicEntry.upToNull all := by
  refine ⟨entriesIn_of_outcome_readEntries, ?_⟩
  rintro ⟨all, ⟨hsize, hcount, hat⟩, rfl⟩
  refine outcome_readEntries_eq_ok_iff_exists.2 ⟨hsize, by omega, all, ?_, rfl⟩
  have hfit : Record.size DynamicEntry * all.length < UInt64.size := hcount ▸ s.size.toNat_lt
  refine (Plan.outcome_table_eq_ok_iff hfit).2 ⟨?_, ?_, hat⟩
  · rw [declared_eq_iff.2 hsize]
    rfl
  · rw [toNat_size_div]
    omega

/-- The string table that is read is the one that the entries refer to. -/
theorem outcome_readStrings_eq_ok_iff
    (hsound : ∀ s ∈ sections, s.Sound sections.length data.length) {t : StringTable} :
    (readStrings sections entries).outcome data = .ok t ↔ StringsIn data sections entries t := by
  unfold readStrings StringsIn
  cases haddr : valueOf? entries .strTab with
  | none => simp
  | some addr =>
    simp only [Option.some.injEq, exists_and_left, exists_eq_left', ← map_header_locateAddress?]
    cases hplace : locateAddress? sections addr with
    | none => simp
    | some place =>
      obtain ⟨hmem, -, -, hoffset⟩ := of_locateAddress? hplace
      simp only [Plan.bind_eq, Plan.outcome_bind, (hsound _ hmem).outcome_contents, Plan.pure_eq,
        Plan.outcome_done, Except.ok.injEq, Option.map_some, Option.some.injEq, exists_eq_left',
        StringTable.window, hoffset]
      obtain ⟨bytes⟩ := t
      cases valueOf? entries .strSz <;> simp [eq_comm]

theorem resolveAll_eq_ok_iff {t : StringTable} {strings : List (DynamicTag × String)} :
    resolveAll t entries = .ok strings ↔
      List.Forall₂ (fun e p => p.1 = e.tag ∧ t.Holds e.value.toNat p.2)
        (entries.filter fun e => e.tag.namesString) strings := by
  rw [resolveAll, mapM_eq_ok_iff]
  refine iff_of_eq (congrArg (List.Forall₂ · _ _) (funext₂ fun e p => propext ?_))
  obtain ⟨tag, text⟩ := p
  simp only [map_eq_ok_iff, StringTable.resolve_eq_ok_iff_holds, Prod.mk.injEq]
  constructor
  · rintro ⟨text, htext, rfl, rfl⟩
    exact ⟨rfl, htext⟩
  · rintro ⟨rfl, htext⟩
    exact ⟨text, htext, rfl, rfl⟩

theorem map_snd_section? (sections : List SectionHeader) :
    (section? sections).map Prod.snd = dynamicSection? sections :=
  map_snd_firstOfType? ..

/-- The linkage that is read is what the dynamic section says. -/
theorem linkageIn_of_outcome_read
    (hsound : ∀ s ∈ sections, s.Sound sections.length data.length) {l : Linkage}
    (h : (read order sections).outcome data = .ok l) : LinkageIn data order sections l := by
  have hdyn := map_snd_section? sections
  unfold read at h
  cases hs : section? sections with
  | none =>
    rw [hs] at h hdyn
    cases h
    exact .absent hdyn.symm
  | some p =>
    rw [hs] at h hdyn
    simp only [Plan.bind_eq, Plan.outcome_bind_eq_ok_iff] at h
    obtain ⟨entries, hentries, h⟩ := h
    obtain ⟨all, hall, rfl⟩ := entriesIn_of_outcome_readEntries hentries
    -- strings are read only if an entry refers to one
    split at h
    · rename_i hany
      simp only [Plan.outcome_bind_eq_ok_iff, Plan.lift_eq, Plan.pure_eq, Plan.outcome_done,
        Except.ok.injEq, outcome_readStrings_eq_ok_iff hsound, resolveAll_eq_ok_iff] at h
      obtain ⟨t, ht, strings, hstrings, rfl⟩ := h
      exact .linked p.2 hdyn.symm all hall (List.any_eq_true.1 hany) t ht strings hstrings
    · rename_i hany
      cases h
      exact .bare p.2 hdyn.symm all hall (by simpa using hany)

/-- **The linkage that is read is what the dynamic section says.** -/
theorem outcome_read_eq_ok_iff
    (hsound : ∀ s ∈ sections, s.Sound sections.length data.length) {l : Linkage} :
    (read order sections).outcome data = .ok l ↔ LinkageIn data order sections l := by
  refine ⟨linkageIn_of_outcome_read hsound, fun h => ?_⟩
  have hdyn := map_snd_section? sections
  unfold read
  cases hs : section? sections with
  | none =>
    rw [hs] at hdyn
    obtain - | ⟨s, hs', -⟩ | ⟨s, hs', -⟩ := h
    · rfl
    all_goals
      rw [hs'] at hdyn
      cases hdyn
  | some p =>
    rw [hs] at hdyn
    simp only [Plan.bind_eq, Plan.outcome_bind_eq_ok_iff, outcome_readEntries_eq_ok_iff]
    obtain hno | ⟨s, hs', all, hall, hbare⟩ |
      ⟨s, hs', all, hall, hlinked, t, ht, strings, hstrings⟩ := h
    · rw [hno] at hdyn
      cases hdyn
    · rw [hs'] at hdyn
      cases hdyn
      refine ⟨_, ⟨all, hall, rfl⟩, ?_⟩
      rw [if_neg (by simpa using hbare)]
      rfl
    · rw [hs'] at hdyn
      cases hdyn
      refine ⟨_, ⟨all, hall, rfl⟩, ?_⟩
      rw [if_pos (List.any_eq_true.2 hlinked)]
      simp only [Plan.outcome_bind_eq_ok_iff, outcome_readStrings_eq_ok_iff hsound]
      exact ⟨t, ht, strings, resolveAll_eq_ok_iff.2 hstrings, rfl⟩

end Linkage

end ElfAnatomy
