import ElfAnatomy.Proofs.SectionData

/-!
# Requests for tables

Where a table is, how many entries it has and how large they are is taken from the file, so nothing
is known of these words.  Whatever they are, a request gives exactly the table that they describe,
or nothing; products and sums are those of natural numbers, and the cause says what is wrong.  Only
the measured length of the source is known to be a word.

* `TableAnswer` : what a request for a table is answered.
* `Plan.tableAnswer` : a whole source answers like that, for every type of records.
* `tables_exact` : **so it does for section headers, program headers and dynamic entries.**
-/

namespace ElfAnatomy

variable {α : Type} [Record α]

/-- What the source answers to a request for `count` records of `size` bytes each at `offset`, whose
entries are declared to have `entrySize` bytes: the result, and the source after it.

A foreign entry size is refused before the region is looked at.  A region that ends past the end of
the source is refused with its size, or with the largest word if the size is none.  Neither takes a
call, and after any answer the source is ready for the next request. -/
structure TableAnswer (α : Type) [Record α] (kind : RecordKind) (size : Nat) (s : Source)
    (order : ByteOrder) (offset count entrySize : UInt64)
    (answer : Except DecodeError (List α) × Source) : Prop where
  ok_iff : (∃ records, answer.1 = .ok records) ↔
    entrySize.toNat = size ∧ offset.toNat + count.toNat * size ≤ s.length
  length : ∀ records, answer.1 = .ok records → records.length = count.toNat
  records_iff : entrySize.toNat = size → ∀ records, answer.1 = .ok records ↔
    s.device.content.slice? offset.toNat (count.toNat * size) =
      some (Record.encodeAll order records)
  mismatch : entrySize.toNat ≠ size →
    answer.1 = .error (.layoutMismatch kind (.ofNat size) entrySize)
  truncated : entrySize.toNat = size → s.length < offset.toNat + count.toNat * size →
    ∃ total : UInt64, total.toNat = min (count.toNat * size) (2 ^ 64 - 1) ∧
      answer.1 = .error (.truncatedTable offset total s.length)
  untouched : ∀ e, answer.1 = .error e → answer.2 = s
  stays : answer.2.Whole ∧ answer.2.device.content = s.device.content

namespace Plan

variable [LawfulRecord α] {data : Bytes} {order : ByteOrder} {offset count entrySize : UInt64}
  {records : List α}

/-- The records that a request gives are those that the region holds. -/
theorem outcome_table_eq_ok_iff_slice (hlen : data.length < 2 ^ 64)
    (hsize : entrySize.toNat = Record.size α) :
    (table α order offset count entrySize).outcome data = .ok records ↔
      data.slice? offset.toNat (count.toNat * Record.size α) =
        some (Record.encodeAll order records) := by
  rw [Nat.mul_comm]
  constructor
  · intro h
    obtain ⟨-, hcount, hat⟩ := standAt_of_outcome_table h
    rwa [Record.StandAt, hcount] at hat
  · intro h
    have hle := (Bytes.slice?_eq_some_iff.1 h).1
    have hcount : records.length = count.toNat :=
      Record.length_of_encodeAll rfl (Bytes.length_of_slice? h)
    rw [← hcount] at h hle
    refine (outcome_table_eq_ok_iff ?_).2 ⟨hsize, hcount, h⟩
    simp only [UInt64.size]
    omega

theorem exists_outcome_table_iff (hlen : data.length < 2 ^ 64) :
    (∃ records, (table α order offset count entrySize).outcome data = .ok records) ↔
      entrySize.toNat = Record.size α ∧
        offset.toNat + count.toNat * Record.size α ≤ data.length := by
  constructor
  · rintro ⟨records, h⟩
    obtain ⟨hsize, hcount, hat⟩ := standAt_of_outcome_table h
    refine ⟨hsize, ?_⟩
    rw [← hcount, Nat.mul_comm]
    exact hat.le
  · rintro ⟨hsize, hle⟩
    rw [Nat.mul_comm] at hle
    obtain ⟨records, hcount, hat⟩ := Record.exists_standAt α order count.toNat hle
    refine ⟨records, (outcome_table_eq_ok_iff_slice hlen hsize).2 ?_⟩
    rwa [Record.StandAt, hcount, Nat.mul_comm] at hat

/-- A request that fails has refused its region, so the source is as it was. -/
theorem snd_perform_table_of_error {s : Source} (hs : s.Whole) (hlen : s.length < 2 ^ 64)
    {e : DecodeError} (h : ((table α order offset count entrySize).perform s).1 = .error e) :
    ((table α order offset count entrySize).perform s).2 = s := by
  have hout := h
  rw [fst_perform_of_whole hs, outcome_table_eq_error_iff (hs.length ▸ hlen)] at hout
  have hrefusal : e.Refusal := by
    rcases hout with ⟨-, rfl⟩ | ⟨-, -, -, -, rfl⟩ <;> trivial
  exact run_of_single (single_table α order offset count entrySize) ⟨s, .unopened⟩ h hrefusal

/-- **A request for a table is answered exactly**, whatever the records are. -/
theorem tableAnswer {s : Source} (hs : s.Whole) (hlen : s.length < 2 ^ 64) (order : ByteOrder)
    (offset count entrySize : UInt64) :
    TableAnswer α (Record.kind α) (Record.size α) s order offset count entrySize
      ((table α order offset count entrySize).perform s) where
  ok_iff := by
    rw [fst_perform_of_whole hs, hs.length]
    exact exists_outcome_table_iff (hs.length ▸ hlen)
  length records h := by
    rw [fst_perform_of_whole hs] at h
    exact (standAt_of_outcome_table h).2.1
  records_iff hsize records := by
    rw [fst_perform_of_whole hs]
    exact outcome_table_eq_ok_iff_slice (hs.length ▸ hlen) hsize
  mismatch hsize := by
    rw [fst_perform_of_whole hs, outcome_table_eq_error_iff (hs.length ▸ hlen)]
    exact .inl ⟨hsize, rfl⟩
  truncated hsize hlt := by
    have htotal : (UInt64.ofNat (min (count.toNat * Record.size α) (2 ^ 64 - 1))).toNat =
        min (count.toNat * Record.size α) (2 ^ 64 - 1) := toNat_ofNat_min (by decide)
    refine ⟨_, htotal, ?_⟩
    rw [hs.length] at hlt ⊢
    rw [fst_perform_of_whole hs, outcome_table_eq_error_iff (hs.length ▸ hlen)]
    exact .inr ⟨hsize, hlt, _, htotal, rfl⟩
  untouched e h := snd_perform_table_of_error hs hlen h
  stays := ⟨hs.perform _, (Source.kept_run _ ⟨s, .unopened⟩).content⟩

end Plan

/-- **Requests for tables are answered exactly**: every table of section headers, of program headers
or of dynamic entries that lies in the source is read as it stands there, and no other. -/
theorem tables_exact (s : Source) (hs : s.Whole) (hlen : s.length < 2 ^ 64) (order : ByteOrder)
    (offset count entrySize : UInt64) :
    TableAnswer SectionHeader .sectionHeader 64 s order offset count entrySize
        ((Plan.table SectionHeader order offset count entrySize).perform s) ∧
      TableAnswer ProgramHeader .programHeader 56 s order offset count entrySize
        ((Plan.table ProgramHeader order offset count entrySize).perform s) ∧
      TableAnswer DynamicEntry .dynamicEntry 16 s order offset count entrySize
        ((Plan.table DynamicEntry order offset count entrySize).perform s) :=
  ⟨Plan.tableAnswer hs hlen order offset count entrySize,
    Plan.tableAnswer hs hlen order offset count entrySize,
    Plan.tableAnswer hs hlen order offset count entrySize⟩

/-- Two dynamic entries on a device that delivers five bytes at a time. -/
def entriesSource : Source where
  device := {
    content := Record.encodeAll .big [(⟨-2, 5⟩ : DynamicEntry), ⟨0, 0⟩]
    faults := { chunk := some 5 } }
  length := 32

/-- Both entries, no entry at their end, a table whose size would wrap around to zero, and a foreign
entry size at an offset outside the source. -/
theorem tables_exact_entries :
    entriesSource.Whole ∧ entriesSource.length < 2 ^ 64 ∧
      ((Plan.table DynamicEntry .big 0 2 16).perform entriesSource).1 =
        .ok [⟨-2, 5⟩, ⟨0, 0⟩] ∧
      ((Plan.table DynamicEntry .big 32 0 16).perform entriesSource).1 = .ok [] ∧
      ((Plan.table SectionHeader .big 0 0x400000000000000 64).perform entriesSource).1 =
        .error (.truncatedTable 0 0xffffffffffffffff 32) ∧
      ((Plan.table ProgramHeader .big 33 0 64).perform entriesSource).1 =
        .error (.layoutMismatch .programHeader 56 64) := by
  have hs : entriesSource.Whole := ⟨⟨rfl, rfl, by decide⟩, by decide⟩
  have hlen : entriesSource.length < 2 ^ 64 := by decide
  obtain ⟨-, -, hboth⟩ := tables_exact entriesSource hs hlen .big 0 2 16
  obtain ⟨-, -, hnone⟩ := tables_exact entriesSource hs hlen .big 32 0 16
  obtain ⟨hhuge, -, -⟩ := tables_exact entriesSource hs hlen .big 0 0x400000000000000 64
  obtain ⟨-, hforeign, -⟩ := tables_exact entriesSource hs hlen .big 33 0 64
  refine ⟨hs, hlen, (hboth.records_iff rfl _).2 (by decide), (hnone.records_iff rfl _).2 (by decide),
    ?_, hforeign.mismatch (by decide)⟩
  obtain ⟨total, htotal, herror⟩ := hhuge.truncated rfl (by decide)
  have hmax : total = 0xffffffffffffffff := UInt64.toNat_inj.1 htotal
  exact hmax ▸ herror

end ElfAnatomy
