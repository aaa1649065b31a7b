import ElfAnatomy.Proofs.Images

/-!
# What a cause of failure says

A cause names bytes, offsets and sizes.  When decoding fails on a file that is all there, what the
cause says about the file is true: the bytes are those of the file, the region does not lie in it,
and so on.

* `Consulted` : the strings that a file refers to, each as a table and an offset.
* `Defect` : what each cause says about the bytes of the file.
* `defect_of_error` : decoding fails with true causes only, at both depths.

A cause that no constructor of `Defect` speaks of is never given.
-/

namespace ElfAnatomy

variable {data : Bytes} {e : DecodeError}

/-! ### Defects of a file -/

/-- The header and the tables of a file. -/
structure Parts where
  header : FileHeader
  sections : List SectionHeader
  segments : List ProgramHeader

/-- The parts are those of the file. -/
structure Parts.StandIn (f : Parts) (data : Bytes) : Prop where
  header : HeaderIn data f.header
  tables : TablesIn data f.header f.sections f.segments

/-- The entries of the first dynamic section, up to the first null entry. -/
def DynamicIn (data : Bytes) (f : Parts) (entries : List DynamicEntry) : Prop :=
  ∃ s all, dynamicSection? f.sections = some s ∧ EntriesIn data f.header.byteOrder s all ∧
    entries = DynamicEntry.upToNull all

/-- A string that the file refers to: the table that should hold it, and where it starts there. -/
inductive Consulted (data : Bytes) : StringTable → UInt64 → Prop
  /-- The name of a section. -/
  | name {f : Parts} (hf : f.StandIn data) {k : Nat} (hk : NamesIndex data f.header k)
      {holder : SectionHeader} (hh : f.sections[k]? = some holder)
      {s : SectionHeader} (hs : s ∈ f.sections)
      (hnamed : ¬ (s.type = SectionType.null ∧ s.name = 0)) :
      Consulted data ⟨holder.bytesIn data⟩ s.name.toUInt64
  /-- The path of the interpreter. -/
  | interpreter {f : Parts} (hf : f.StandIn data) {p : ProgramHeader}
      (hp : f.segments.find? (fun p => p.type == SegmentType.interp) = some p)
      (hin : p.offset.toNat + p.filesz.toNat ≤ data.length) :
      Consulted data ⟨(data.drop p.offset.toNat).take p.filesz.toNat⟩ 0
  /-- The string of a dynamic entry. -/
  | dynamic {f : Parts} (hf : f.StandIn data) {entries : List DynamicEntry}
      (hd : DynamicIn data f entries) {t : StringTable}
      (ht : StringsIn data f.sections entries t) {d : DynamicEntry} (hmem : d ∈ entries)
      (hstring : d.tag.namesString = true) :
      Consulted data t d.value

/-- The size that the entries of a table should have, and the one that the file declares. -/
inductive Declared (data : Bytes) : RecordKind → UInt64 → UInt64 → Prop
  | sectionHeader {h : FileHeader} (hh : h.StandsIn data) :
      Declared data .sectionHeader 64 h.shentsize.toUInt64
  | programHeader {h : FileHeader} (hh : h.StandsIn data) :
      Declared data .programHeader 56 h.phentsize.toUInt64
  | dynamicEntry {f : Parts} (hf : f.StandIn data) {s : SectionHeader}
      (hs : dynamicSection? f.sections = some s) :
      Declared data .dynamicEntry 16 s.entsize

/-- What a cause of failure says about the file, as a fact about its bytes. -/
inductive Defect (data : Bytes) : DecodeError → Prop
  /-- The file starts with other bytes than the signature. -/
  | signature (hne : data.take 4 ≠ [0x7f, 0x45, 0x4c, 0x46]) :
      Defect data (.notElf (data.take 4))
  | fileClass {b : UInt8} (hb : data[4]? = some b) (hne : b ≠ 2) :
      Defect data (.unsupportedClass b)
  | encoding {b : UInt8} (hb : data[5]? = some b) (h1 : b ≠ 1) (h2 : b ≠ 2) :
      Defect data (.unsupportedEncoding b)
  | entrySize {record : RecordKind} {expected found : UInt64}
      (hd : Declared data record expected found) (hne : expected ≠ found) :
      Defect data (.layoutMismatch record expected found)
  /-- A region ends past the end of the file. -/
  | region {offset size : UInt64} (h : data.length < offset.toNat + size.toNat) :
      Defect data (.truncatedTable offset size data.length)
  /-- The first dynamic section is not a whole number of entries. -/
  | ragged {f : Parts} (hf : f.StandIn data) {s : SectionHeader}
      (hs : dynamicSection? f.sections = some s) (hsize : s.size.toNat % 16 ≠ 0) :
      Defect data (.truncatedTable s.offset s.size data.length)
  | stringOutside {t : StringTable} {offset : UInt64} (ht : Consulted data t offset)
      (h : t.length ≤ offset.toNat) :
      Defect data (.offsetOutOfRange offset t.length)
  /-- No NUL follows the start of a string. -/
  | stringOpen {t : StringTable} {offset : UInt64} (ht : Consulted data t offset)
      (h : offset.toNat < t.length) (hnul : 0 ∉ t.bytes.drop offset.toNat) :
      Defect data (.unterminatedString offset)
  /-- The bytes of a string up to the first NUL are those of no text. -/
  | stringBytes {t : StringTable} {offset : UInt64} (ht : Consulted data t offset)
      (h : offset.toNat < t.length) {bytes rest : Bytes} (hnul : 0 ∉ bytes)
      (hbytes : t.bytes.drop offset.toNat = bytes ++ 0 :: rest)
      (htext : ∀ text, Utf8.encode text ≠ bytes) :
      Defect data (.invalidUtf8 offset)
  /-- Dynamic entries refer to strings, but none gives the address of a table. -/
  | noStrings {f : Parts} (hf : f.StandIn data) {entries : List DynamicEntry}
      (hd : DynamicIn data f entries) (hstring : ∃ d ∈ entries, d.tag.namesString = true)
      (hnone : ∀ d ∈ entries, d.tag ≠ .strTab) :
      Defect data (.unresolvedStringTable none)
  /-- No section of the file starts at the address of the strings or contains it. -/
  | stringsNowhere {f : Parts} (hf : f.StandIn data) {entries : List DynamicEntry}
      (hd : DynamicIn data f entries) (hstring : ∃ d ∈ entries, d.tag.namesString = true)
      {addr : UInt64} (haddr : Linkage.valueOf? entries .strTab = some addr)
      (hnone : ∀ s ∈ f.sections, s.occupiesFile = true → s.addr ≠ 0 → s.addr ≠ addr ∧
        ¬ (s.addr.toNat ≤ addr.toNat ∧ addr.toNat < s.addr.toNat + s.size.toNat)) :
      Defect data (.unresolvedStringTable (some addr))
  /-- The link of a section leads outside the section table. -/
  | link {f : Parts} (hf : f.StandIn data) {s : SectionHeader} (hs : s ∈ f.sections)
      (htype : s.type ∈ SectionType.linked) (hout : f.sections.length ≤ s.link.toNat) :
      Defect data (.badSectionIndex s.link.toNat f.sections.length)
  /-- The index of the section with the names leads outside the section table. -/
  | namesIndex {f : Parts} (hf : f.StandIn data) {k : Nat} (hk : NamesIndex data f.header k)
      (hout : f.sections.length ≤ k) :
      Defect data (.badSectionIndex k f.sections.length)

/-! ### Regions and tables -/

/-- A table whose size is no word ends past the end of every file. -/
theorem defect_of_table (hlen : data.length < 2 ^ 63) {offset count entrySize : UInt64}
    (h : Region.table offset count entrySize data.length = .error e) : Defect data e := by
  obtain ⟨-, rfl⟩ := Region.table_eq_error_iff.1 h
  refine .region ?_
  have : (0xffffffffffffffff : UInt64).toNat = 2 ^ 64 - 1 := rfl
  omega

theorem defect_of_check {r : Region} (h : r.check data.length = .error e) : Defect data e := by
  obtain ⟨hlt, rfl⟩ := Region.check_eq_error_iff.1 h
  exact .region hlt

/-- The check of a table fails only where the table does not lie in the file. -/
theorem defect_of_table_check (hlen : data.length < 2 ^ 63) {offset count entrySize : UInt64}
    (h : (Region.table offset count entrySize data.length >>= fun r => r.check data.length) =
      .error e) : Defect data e := by
  rcases bind_eq_error_iff.1 h with h | ⟨_, -, h⟩
  · exact defect_of_table hlen h
  · exact defect_of_check h

theorem defect_of_outcome_read {r : Region} (h : (Plan.read r).outcome data = .error e) :
    Defect data e := by
  obtain ⟨hlt, rfl⟩ := Plan.outcome_read_eq_error_iff.1 h
  exact .region hlt

theorem defect_of_contents {s : SectionHeader} (h : s.contents.outcome data = .error e) :
    Defect data e := by
  unfold SectionHeader.contents at h
  split at h
  · exact defect_of_outcome_read h
  · cases h

/-- A table of which the entry size is right fails only where it does not lie in the file. -/
theorem defect_of_outcome_table (hlen : data.length < 2 ^ 63) {α : Type} [Record α]
    [LawfulRecord α] {order : ByteOrder} {offset count entrySize : UInt64}
    (hsize : entrySize.toNat = Record.size α)
    (h : (Plan.table α order offset count entrySize).outcome data = .error e) :
    Defect data e := by
  rcases (Plan.outcome_table_eq_error_iff_exists hsize).1 h with h | ⟨region, -, hlt, rfl⟩
  · exact defect_of_table hlen h
  · exact .region hlt

/-! ### The file header -/

theorem checkSignature_eq_error_iff {bs : Bytes} :
    checkSignature bs = .error e ↔ bs.take 4 ≠ signature ∧ e = .notElf (bs.take 4) := by
  rw [checkSignature, require_eq_error_iff, eq_comm (a := e)]

theorem FileClass.ofByte_eq_error_iff {b : UInt8} :
    ofByte b = .error e ↔ (b ≠ 1 ∧ b ≠ 2) ∧ e = .unsupportedClass b := by
  unfold ofByte
  split
  · rename_i h
    simp [h]
  · rename_i h1
    split
    · rename_i h
      simp [h]
    · rename_i h2
      simp [h1, h2, eq_comm]

/-- The class of a file cannot be told from its first 64 bytes only if the class byte is missing,
or names no class. -/
theorem defect_of_ofStart (h : FileClass.ofStart (data.take 64) = .error e) : Defect data e := by
  rw [FileClass.ofStart, bind_eq_error_iff, checkSignature_eq_error_iff, List.take_take] at h
  rcases h with ⟨hne, rfl⟩ | ⟨-, -, h⟩
  · exact .signature hne
  · cases hb : data[4]? with
    | none =>
      -- the length that the cause gives is that of the first 64 bytes: all there are
      have hshort := List.getElem?_eq_none_iff.1 hb
      rw [List.getElem?_take_of_lt (by decide), hb] at h
      cases h
      rw [List.take_of_length_le (by omega)]
      exact .region (by change _ < 4 + 1; omega)
    | some b =>
      rw [List.getElem?_take_of_lt (by decide), hb] at h
      obtain ⟨⟨-, h2⟩, rfl⟩ := FileClass.ofByte_eq_error_iff.1 h
      exact .fileClass hb h2

theorem defect_of_parseFields (h : FileHeader.parseFields (data.take 64) = .error e) :
    Defect data e := by
  simp only [FileHeader.parseFields, bind_eq_error_iff, require_eq_error_iff,
    require_eq_ok_iff, exists_const, inside_eq_error_iff, inside_eq_ok_iff,
    ByteOrder.ofByte_eq_error_iff, ByteOrder.ofByte_eq_ok_iff] at h
  simp only [FileHeader.size] at h
  rcases h with ⟨hshort, rfl⟩ | ⟨hlong, ⟨hnone, -⟩ | ⟨b, hb, h⟩⟩
  · rw [List.length_take] at hshort
    rw [List.take_of_length_le (by omega)]
    exact .region (by change _ < 0 + 64; omega)
  · -- there is a sixth byte among 64
    have := List.getElem?_eq_none_iff.1 hnone
    omega
  · rcases h with ⟨hb', rfl⟩ | ⟨order, -, hnone, -⟩
    · rw [List.getElem?_take_of_lt (by decide)] at hb
      exact .encoding hb (hb' .little) (hb' .big)
    · have := FileHeader.isSome_fields? order hlong
      rw [hnone] at this
      cases this

namespace FileHeader

variable {h : FileHeader}

theorem defect_of_checkSegmentTable (hlen : data.length < 2 ^ 63) (hh : h.StandsIn data)
    (he : h.checkSegmentTable data.length = .error e) : Defect data e := by
  unfold checkSegmentTable at he
  split at he
  · cases he
  · rcases bind_eq_error_iff.1 he with he | ⟨-, -, he⟩
    · obtain ⟨hne, rfl⟩ := require_eq_error_iff.1 he
      exact .entrySize (.programHeader hh) (Ne.symm hne)
    · split at he
      · cases he
      · exact defect_of_table_check hlen he

theorem defect_of_checkSectionTable (hlen : data.length < 2 ^ 63) (hh : h.StandsIn data)
    (he : h.checkSectionTable data.length = .error e) : Defect data e := by
  unfold checkSectionTable at he
  split at he
  · rcases bind_eq_error_iff.1 he with he | ⟨-, -, he⟩
    · obtain ⟨hne, rfl⟩ := require_eq_error_iff.1 he
      exact .entrySize (.sectionHeader hh) (Ne.symm hne)
    · exact defect_of_table_check hlen he
  · cases he

theorem standsIn_of_parseFields (hc : FileClass.ofStart (data.take 64) = .ok .elf64)
    (hp : parseFields (data.take 64) = .ok h) : h.StandsIn data := by
  obtain ⟨hsig, hclass⟩ := FileClass.ofStart_eq_ok_iff.1 hc
  obtain ⟨hlong, hord, henc⟩ := parseFields_eq_ok_iff.1 hp
  rw [List.take_take] at hsig henc
  rw [List.getElem?_take_of_lt (by decide)] at hclass hord
  rw [List.length_take] at hlong
  exact ⟨by omega, hsig, hclass, hord, henc⟩

/-- Reading the header fails with true causes only. -/
theorem defect_of_outcome_readStaged (hlen : data.length < 2 ^ 63)
    (he : readStaged.outcome data = .error e) : Defect data e := by
  simp only [readStaged, Plan.bind_eq, Plan.lift_eq, Plan.pure_eq,
    Plan.outcome_bind_eq_error_iff, Plan.outcome_done, Plan.outcome_length, Plan.outcome_reached,
    Plan.outcome_leading (by decide : size < 2 ^ 64), Except.ok.injEq, exists_eq_left',
    reduceCtorEq, false_or, true_and, and_false, exists_false, or_false, exists_const] at he
  simp only [size] at he
  rcases he with he | ⟨-, -, he | ⟨c, hc, he | ⟨_, hc64, he | ⟨h, hp, he⟩⟩⟩⟩
  · obtain ⟨hne, rfl⟩ := checkSignature_eq_error_iff.1 he
    rw [List.take_take] at hne ⊢
    exact .signature hne
  · exact defect_of_ofStart he
  · obtain ⟨hne, rfl⟩ := require_eq_error_iff.1 he
    have hclass := (FileClass.ofStart_eq_ok_iff.1 hc).2
    rw [List.getElem?_take_of_lt (by decide)] at hclass
    refine .fileClass hclass ?_
    cases c
    · decide
    · exact absurd rfl hne
  · exact defect_of_parseFields he
  · obtain rfl := require_eq_ok_iff.1 hc64
    have hh := standsIn_of_parseFields hc hp
    rcases bind_eq_error_iff.1 he with he | ⟨-, -, he⟩
    · exact defect_of_checkSegmentTable hlen hh he
    · exact defect_of_checkSectionTable hlen hh he

end FileHeader

/-! ### The tables -/

namespace SectionTable

variable {h : FileHeader}

theorem defect_of_readHeaders (hlen : data.length < 2 ^ 63) (hsize : h.shentsize = 64)
    {count : UInt64} (he : (readHeaders h count).outcome data = .error e) : Defect data e := by
  refine defect_of_outcome_table hlen ?_ he
  rw [hsize]
  rfl

theorem defect_of_outcome_read (hlen : data.length < 2 ^ 63) (hh : HeaderIn data h)
    (he : (read h).outcome data = .error e) : Defect data e := by
  unfold read at he
  split at he
  · rename_i hs
    have hsize := (hh.sections.resolve_left (FileHeader.hasSections_iff.1 hs)).1
    simp only [readFirst, Plan.bind_eq, Plan.pure_eq, Plan.outcome_bind_eq_error_iff,
      Plan.outcome_done, reduceCtorEq, and_false, exists_false, or_false] at he
    rcases he with he | ⟨first?, -, he⟩
    · split at he
      · simp only [Plan.outcome_bind_eq_error_iff, Plan.outcome_done, reduceCtorEq, and_false,
          exists_false, or_false] at he
        exact defect_of_readHeaders hlen hsize he
      · cases he
    · exact defect_of_readHeaders hlen hsize he
  · cases he

end SectionTable

theorem Image.defect_of_outcome_readSegments (hlen : data.length < 2 ^ 63) {h : FileHeader}
    (hh : HeaderIn data h) {sections : List SectionHeader}
    (he : (readSegments h sections).outcome data = .error e) : Defect data e := by
  simp only [readSegments] at he
  split at he
  · cases he
  · rename_i h0
    have hnum : h.phnum ≠ 0 := fun hz => h0 (segmentCount_eq_zero hz)
    refine defect_of_outcome_table hlen ?_ he
    rw [(hh.segments.resolve_left hnum).1]
    rfl

/-! ### What the tables refer to -/

variable {f : Parts}

theorem defect_of_checkSections (hf : f.StandIn data)
    (he : checkSections f.sections data.length = .error e) : Defect data e := by
  obtain ⟨s, hs, he⟩ := exists_of_forM_eq_error he
  rw [SectionHeader.check, bind_eq_error_iff, require_eq_error_iff] at he
  rcases he with ⟨hlink, rfl⟩ | ⟨-, -, he⟩
  · rw [Classical.not_imp, SectionHeader.hasSectionLink, List.contains_iff_mem, Nat.not_lt]
      at hlink
    exact .link hf hs hlink.1 hlink.2
  · split at he
    · exact defect_of_check he
    · cases he

/-- A string that is consulted is not found only where the table does not hold it. -/
theorem defect_of_resolve {t : StringTable} {offset : UInt64} (ht : Consulted data t offset)
    (he : t.resolve offset = .error e) : Defect data e := by
  rcases StringTable.resolve_eq_error_iff.1 he with ⟨hout, rfl⟩ | ⟨hin, hopen, rfl⟩ |
    ⟨bytes, rest, hnul, hrest, hnone, rfl⟩
  · exact .stringOutside ht hout
  · exact .stringOpen ht hin hopen
  · have hin : offset.toNat < t.length := Nat.not_le.1 fun hout => by
      simp [List.drop_eq_nil_iff.2 hout] at hrest
    exact .stringBytes ht hin hnul hrest (Utf8.decode?_eq_none_iff.1 hnone)

theorem SectionTable.defect_of_outcome_readNames (hf : f.StandIn data) {k : UInt32}
    (hk : NamesIndex data f.header k.toNat)
    (he : (readNames ⟨f.sections, k⟩).outcome data = .error e) : Defect data e := by
  simp only [readNames] at he
  split at he
  · cases he
  · split at he
    · rename_i hout
      cases he
      exact .namesIndex hf hk (List.getElem?_eq_none_iff.1 hout)
    · rename_i holder hholder
      simp only [Plan.bind_eq, Plan.lift_eq, Plan.outcome_bind_eq_error_iff, Plan.outcome_done]
        at he
      rcases he with he | ⟨bytes, hbytes, he⟩
      · exact defect_of_contents he
      · obtain ⟨-, rfl⟩ := SectionHeader.outcome_contents_eq_ok_iff.1 hbytes
        obtain ⟨s, hs, he⟩ := exists_of_mapM_eq_error he
        unfold nameOf at he
        split at he
        · cases he
        · rename_i hnamed
          exact defect_of_resolve (.name hf hk hholder hs hnamed) he

theorem Image.defect_of_outcome_readInterpreter (hf : f.StandIn data)
    (he : (readInterpreter f.segments).outcome data = .error e) : Defect data e := by
  unfold readInterpreter at he
  split at he
  · cases he
  · rename_i p hp
    simp only [Plan.bind_eq, Plan.lift_eq, Plan.pure_eq, Plan.outcome_bind_eq_error_iff,
      Plan.outcome_done, reduceCtorEq, and_false, exists_false, or_false] at he
    rcases he with he | ⟨bytes, hbytes, he⟩
    · exact defect_of_outcome_read he
    · obtain ⟨hin, rfl⟩ := Bytes.slice?_eq_some_iff.1 (Plan.outcome_read_eq_ok_iff.1 hbytes)
      exact defect_of_resolve (.interpreter hf hp hin) he

/-! ### The dynamic section -/

namespace Linkage

variable {s : SectionHeader} {entries : List DynamicEntry}

theorem defect_of_outcome_readEntries (hlen : data.length < 2 ^ 63) (hf : f.StandIn data)
    (hs : dynamicSection? f.sections = some s)
    (he : (readEntries f.header.byteOrder s).outcome data = .error e) : Defect data e := by
  simp only [readEntries, Plan.bind_eq, Plan.lift_eq, Plan.pure_eq,
    Plan.outcome_bind_eq_error_iff, Plan.outcome_done, Plan.outcome_length, require_eq_error_iff,
    require_eq_ok_iff, declared_eq_iff, size_mod_eq_zero_iff, Except.ok.injEq, exists_eq_left',
    reduceCtorEq, and_false, exists_false, false_or, or_false, exists_const] at he
  rcases he with ⟨hsize, rfl⟩ | ⟨hsize, ⟨hragged, rfl⟩ | ⟨hwhole, he⟩⟩
  · -- a declared size of zero counts as the right one, so it is never found to be wrong
    obtain ⟨h0, h16⟩ := not_or.1 hsize
    rw [if_neg h0]
    exact .entrySize (.dynamicEntry hf hs) (Ne.symm h16)
  · exact .ragged hf hs hragged
  · refine defect_of_outcome_table hlen ?_ he
    rw [declared_eq_iff.2 hsize]
    rfl

theorem valueOf?_eq_none_iff {tag : DynamicTag} :
    valueOf? entries tag = none ↔ ∀ d ∈ entries, d.tag ≠ tag := by
  simp [valueOf?]

theorem locateAddress?_eq_none_iff {sections : List SectionHeader} {addr : UInt64} :
    locateAddress? sections addr = none ↔
      ∀ s ∈ sections, s.occupiesFile = true → s.addr ≠ 0 → s.addr ≠ addr ∧
        ¬ (s.addr.toNat ≤ addr.toNat ∧ addr.toNat < s.addr.toNat + s.size.toNat) := by
  rw [← Option.map_eq_none_iff (f := Location.header), map_header_locateAddress?,
    Option.orElse_eq_orElse, Option.orElse_eq_or, Option.or_eq_none_iff, startingAt?, containing?,
    List.find?_eq_none, List.find?_eq_none]
  simp only [decide_eq_true_eq, not_and]
  constructor
  · rintro ⟨hstart, hin⟩ s hs ho h0
    exact ⟨fun ha => hstart s hs ho ha h0, hin s hs ho h0⟩
  · intro h
    exact ⟨fun s hs ho ha h0 => (h s hs ho h0).1 ha, fun s hs ho h0 => (h s hs ho h0).2⟩

theorem defect_of_outcome_readStrings (hf : f.StandIn data) (hd : DynamicIn data f entries)
    (hstring : ∃ d ∈ entries, d.tag.namesString = true)
    (he : (readStrings f.sections entries).outcome data = .error e) : Defect data e := by
  unfold readStrings at he
  split at he
  · rename_i hnone
    cases he
    exact .noStrings hf hd hstring (valueOf?_eq_none_iff.1 hnone)
  · rename_i addr haddr
    split at he
    · rename_i hnone
      cases he
      exact .stringsNowhere hf hd hstring haddr (locateAddress?_eq_none_iff.1 hnone)
    · simp only [Plan.bind_eq, Plan.pure_eq, Plan.outcome_bind_eq_error_iff, Plan.outcome_done,
        reduceCtorEq, and_false, exists_false, or_false] at he
      exact defect_of_contents he

theorem defect_of_resolveAll (hf : f.StandIn data) (hd : DynamicIn data f entries)
    {t : StringTable} (ht : StringsIn data f.sections entries t)
    (he : resolveAll t entries = .error e) : Defect data e := by
  obtain ⟨d, hmem, he⟩ := exists_of_mapM_eq_error he
  obtain ⟨hmem, hstring⟩ := List.mem_filter.1 hmem
  exact defect_of_resolve (.dynamic hf hd ht hmem hstring) (map_eq_error_iff.1 he)

theorem defect_of_outcome_read (hlen : data.length < 2 ^ 63) (hf : f.StandIn data)
    (hsound : ∀ s ∈ f.sections, s.Sound f.sections.length data.length)
    (he : (read f.header.byteOrder f.sections).outcome data = .error e) : Defect data e := by
  have hdyn := map_snd_section? f.sections
  unfold read at he
  split at he
  · cases he
  · rename_i i s hs
    rw [hs] at hdyn
    simp only [Plan.bind_eq, Plan.outcome_bind_eq_error_iff] at he
    rcases he with he | ⟨entries, hentries, he⟩
    · exact defect_of_outcome_readEntries hlen hf hdyn.symm he
    · obtain ⟨all, hall, rfl⟩ := entriesIn_of_outcome_readEntries hentries
      have hd : DynamicIn data f (DynamicEntry.upToNull all) := ⟨s, all, hdyn.symm, hall, rfl⟩
      split at he
      · rename_i hany
        simp only [Plan.outcome_bind_eq_error_iff, Plan.lift_eq, Plan.pure_eq, Plan.outcome_done,
          reduceCtorEq, and_false, exists_false, or_false] at he
        rcases he with he | ⟨t, ht, he⟩
        · exact defect_of_outcome_readStrings hf hd (List.any_eq_true.1 hany) he
        · exact defect_of_resolveAll hf hd ((outcome_readStrings_eq_ok_iff hsound).1 ht) he
      · cases he

end Linkage

/-! ### Files -/

theorem Image.defect_of_outcome_read (hlen : data.length < 2 ^ 63)
    (he : read.outcome data = .error e) : Defect data e := by
  simp only [read, Plan.bind_eq, Plan.lift_eq, Plan.pure_eq, Plan.outcome_bind_eq_error_iff,
    Plan.outcome_done, Plan.outcome_length, Plan.outcome_reached, Except.ok.injEq,
    exists_eq_left', reduceCtorEq, true_and, false_or, or_false, and_false, exists_false,
    exists_const] at he
  -- stage by stage: what the stages before have found makes the cause a fact about the file
  rcases he with he | ⟨header, hheader, he⟩
  · exact FileHeader.defect_of_outcome_readStaged hlen he
  rw [FileHeader.outcome_readStaged_eq_ok_iff] at hheader
  rcases he with he | ⟨⟨sections, k⟩, htable, he⟩
  · exact SectionTable.defect_of_outcome_read hlen hheader he
  obtain ⟨hcount, hat, hindex⟩ := SectionTable.standAt_of_outcome_read htable
  rcases he with he | ⟨segments, hsegments, he⟩
  · exact defect_of_outcome_readSegments hlen hheader he
  obtain ⟨hnum, hseg⟩ := standAt_of_outcome_readSegments hsegments
  have hf : Parts.StandIn ⟨header, sections, segments⟩ data :=
    ⟨hheader, hcount, hat, hnum, hseg⟩
  rcases he with he | ⟨_, hsound, he⟩
  · exact defect_of_checkSections hf he
  rw [checkSections_eq_ok_iff] at hsound
  rcases he with he | ⟨-, -, he⟩
  · exact SectionTable.defect_of_outcome_readNames hf hindex he
  rcases he with he | ⟨-, -, he⟩
  · exact defect_of_outcome_readInterpreter hf he
  · exact Linkage.defect_of_outcome_read hlen hf hsound he

/-- **Decoding fails with true causes only**, at both depths. -/
theorem defect_of_error (data : Bytes) (hlen : data.length < 2 ^ 63) :
    (∀ e, decode data = .error e → Defect data e) ∧
      ∀ e, decodeHeader data = .error e → Defect data e := by
  constructor
  · intro e he
    rw [decode_eq_outcome] at he
    exact Image.defect_of_outcome_read hlen he
  · intro e he
    rw [decodeHeader_eq_outcome] at he
    exact FileHeader.defect_of_outcome_readStaged hlen he

/-- A file of four bytes ends before its class byte. -/
theorem defect_of_signature_alone :
    signature.length < 2 ^ 63 ∧ decode signature = .error (.truncatedTable 4 1 4) ∧
      Defect signature (.truncatedTable 4 1 4) := by
  have hlen : signature.length < 2 ^ 63 := by decide
  have he : decode signature = .error (.truncatedTable 4 1 4) := by
    rw [decode_eq_outcome]
    rfl
  exact ⟨hlen, he, (defect_of_error signature hlen).1 _ he⟩

end ElfAnatomy
