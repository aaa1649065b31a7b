import Mathlib.Algebra.Group.Nat.Defs
import ElfAnatomy.Proofs.Format
import ElfAnatomy.Proofs.Outcome
import ElfAnatomy.Proofs.Steps

/-!
# Decoding finds what stands in the file

Each reading plan of the library is compared with the format.  A plan that succeeds has found what
stands in the file; the other way round, a plan finds everything that stands in a file, if only the
sizes of its tables are words.

* `Plan.outcome_table_eq_ok_iff`, `Plan.outcome_table_eq_error_iff` : a table of records.
* `FileHeader.outcome_readStaged_eq_ok_iff` : the file header, with room for its tables.
* `SectionTable.outcome_read_eq_ok_iff`, `Image.outcome_readSegments_eq_ok_iff` : the tables.
-/

namespace ElfAnatomy

/-! ### Runs of records -/

namespace Record

variable {α : Type} [Record α] {order : ByteOrder}

theorem StandAt.le {data : Bytes} {offset : Nat} {records : List α}
    (h : StandAt order data offset records) :
    offset + size α * records.length ≤ data.length :=
  (Bytes.slice?_eq_some_iff.1 h).1

variable [LawfulRecord α]

theorem encodeAll_inj {records others : List α} :
    encodeAll order records = encodeAll order others ↔ records = others := by
  constructor
  · intro h
    have := parseAll?_encodeAll order records
    rw [h, parseAll?_encodeAll] at this
    exact (Option.some.inj this).symm
  · rintro rfl; rfl

/-- The bytes of records tell how many they are. -/
theorem length_of_encodeAll {records : List α} {bs : Bytes} {count : Nat}
    (h : encodeAll order records = bs) (hbs : bs.length = size α * count) :
    records.length = count := by
  rw [← h, length_encodeAll] at hbs
  exact Nat.eq_of_mul_eq_mul_left LawfulRecord.size_pos hbs

/-- Every whole number of blocks is written by as many records. -/
theorem exists_encodeAll (order : ByteOrder) {bs : Bytes} {count : Nat}
    (hbs : bs.length = size α * count) :
    ∃ records : List α, records.length = count ∧ encodeAll order records = bs := by
  obtain ⟨records, hr⟩ := Option.isSome_iff_exists.1 (isSome_parseAll? (α := α) order bs)
  have henc := encodeAll_of_parseAll? hbs hr
  exact ⟨records, length_of_encodeAll henc hbs, henc⟩

/-- Only one run of a given length stands at a place. -/
theorem StandAt.unique {data : Bytes} {offset : Nat} {records others : List α}
    (h : StandAt order data offset records) (h' : StandAt order data offset others)
    (hlen : records.length = others.length) : records = others := by
  rw [StandAt, hlen, h', Option.some.injEq, encodeAll_inj] at h
  exact h.symm

/-- Where there is room for records, some stand there. -/
theorem exists_standAt (α : Type) [Record α] [LawfulRecord α] (order : ByteOrder) {data : Bytes}
    {offset : Nat} (count : Nat) (h : offset + size α * count ≤ data.length) :
    ∃ records : List α, records.length = count ∧ StandAt order data offset records := by
  have hlen : ((data.drop offset).take (size α * count)).length = size α * count := by
    rw [List.length_take, List.length_drop]
    omega
  obtain ⟨records, rfl, hr⟩ := exists_encodeAll order hlen
  exact ⟨records, rfl, Bytes.slice?_eq_some_iff.2 ⟨h, hr.symm⟩⟩

/-- A run of records is its first record, and the others right after it. -/
theorem standAt_cons_iff {data : Bytes} {offset : Nat} {a : α} {records : List α} :
    StandAt order data offset (a :: records) ↔
      data.slice? offset (size α) = some (encode order a) ∧
        StandAt order data (offset + size α) records := by
  have hlen := LawfulRecord.length_encode order a
  rw [StandAt, StandAt, List.length_cons, Nat.mul_succ, Nat.add_comm _ (size α), encodeAll,
    List.map_cons, List.flatten_cons]
  -- both sides cut the same bytes after the first record
  simp only [Bytes.slice?_eq_some_iff, List.take_add, List.drop_drop]
  constructor
  · rintro ⟨hle, h⟩
    have htake : ((data.drop offset).take (size α)).length = (encode order a).length := by
      rw [List.length_take, List.length_drop]
      omega
    obtain ⟨ha, hrest⟩ := List.append_inj h htake
    exact ⟨⟨by omega, ha⟩, by omega, hrest⟩
  · rintro ⟨⟨-, ha⟩, hle, hrest⟩
    exact ⟨by omega, by rw [ha, hrest, encodeAll]⟩

/-- Each record of a run stands at its own place. -/
theorem StandAt.getElem {data : Bytes} {offset : Nat} {records : List α}
    (h : StandAt order data offset records) (i : Nat) (hi : i < records.length) :
    data.slice? (offset + size α * i) (size α) = some (encode order records[i]) := by
  induction records generalizing offset i with
  | nil => simp at hi
  | cons a records ih =>
    obtain ⟨ha, hrest⟩ := standAt_cons_iff.1 h
    cases i with
    | zero => exact ha
    | succ i =>
      rw [Nat.mul_succ, Nat.add_comm _ (size α), ← Nat.add_assoc]
      exact ih hrest i (Nat.lt_of_succ_lt_succ hi)

/-- The first records of a run stand at its place. -/
theorem StandAt.take {data : Bytes} {offset : Nat} {records : List α}
    (h : StandAt order data offset records) (n : Nat) :
    StandAt order data offset (records.take n) := by
  obtain ⟨hle, hb⟩ := Bytes.slice?_eq_some_iff.1 h
  have hn : size α * (records.take n).length ≤ size α * records.length :=
    Nat.mul_le_mul_left _ (List.length_take_le' _ _)
  refine Bytes.slice?_eq_some_iff.2 ⟨by omega, ?_⟩
  rw [← List.take_append_drop n records] at hb
  rw [encodeAll, List.map_append, List.flatten_append] at hb
  have := congrArg (List.take (size α * (records.take n).length)) hb
  rw [List.take_take, List.take_append_drop, Nat.min_eq_left hn] at this
  rw [this, ← length_encodeAll order]
  exact List.take_left

end Record

/-! ### Plain questions -/

/-- A table has no region if its size is no word. -/
theorem Region.table_eq_error_iff {offset count entrySize : UInt64} {length : Nat}
    {e : DecodeError} :
    table offset count entrySize length = .error e ↔
      2 ^ 64 ≤ count.toNat * entrySize.toNat ∧
        e = .truncatedTable offset 0xffffffffffffffff length := by
  unfold table
  split
  · rename_i h
    simp only [reduceCtorEq, false_iff, not_and]
    intro hle
    exact absurd h (Nat.not_lt.2 hle)
  · rename_i h
    have hle : 2 ^ 64 ≤ count.toNat * entrySize.toNat := Nat.not_lt.1 h
    rw [Except.error.injEq, eq_comm, and_iff_right hle]

namespace Plan

variable {data : Bytes}

/-- The number of bytes at the start of a source is a word. -/
theorem toNat_ofNat_min {n max : Nat} (hmax : max < 2 ^ 64) :
    (UInt64.ofNat (min n max)).toNat = min n max :=
  UInt64.toNat_ofNat_of_lt' (by simp only [UInt64.size]; omega)

/-- The bytes at the start of a file. -/
theorem outcome_leading {max : Nat} (hmax : max < 2 ^ 64) :
    (leading max).outcome data = .ok (data.take max) := by
  simp only [leading, bind_eq, outcome_bind, outcome_length, outcome_read_eq_ok_iff,
    toNat_ofNat_min hmax]
  rw [UInt64.toNat_zero]
  refine Bytes.slice?_eq_some_iff.2 ⟨by omega, ?_⟩
  rw [List.drop_zero, Nat.min_comm, ← List.take_eq_take_min]

variable {α : Type} [Record α] {order : ByteOrder} {offset count entrySize : UInt64}
  {records : List α}

/-- The steps of reading a table. -/
theorem outcome_table_eq_ok_iff_exists :
    (table α order offset count entrySize).outcome data = .ok records ↔
      entrySize.toNat = Record.size α ∧
        ∃ r, Region.table offset count entrySize data.length = .ok r ∧
          ∃ bytes, data.slice? r.offset.toNat r.size.toNat = some bytes ∧
            Record.parseAll? order bytes = some records := by
  simp only [table, bind_eq, lift_eq, outcome_bind_eq_ok_iff, outcome_done, outcome_length,
    Except.ok.injEq, exists_eq_left', require_eq_ok_iff, exists_const, outcome_read_eq_ok_iff,
    inside_eq_ok_iff]

variable [LawfulRecord α]

/-- A table that is read stands in the file, with as many records as asked for. -/
theorem standAt_of_outcome_table
    (h : (table α order offset count entrySize).outcome data = .ok records) :
    entrySize.toNat = Record.size α ∧ records.length = count.toNat ∧
      Record.StandAt order data offset.toNat records := by
  obtain ⟨hsize, region, hregion, bytes, hbytes, hrecords⟩ := outcome_table_eq_ok_iff_exists.1 h
  obtain ⟨rfl, hr⟩ := Region.table_eq_ok_iff.1 hregion
  rw [hsize, Nat.mul_comm] at hr
  have hlen := Bytes.length_of_slice? hbytes
  rw [hr] at hbytes hlen
  have henc := Record.encodeAll_of_parseAll? hlen hrecords
  have hcount : records.length = count.toNat := Record.length_of_encodeAll henc hlen
  refine ⟨hsize, hcount, ?_⟩
  rw [Record.StandAt, hcount, hbytes, henc]

/-- **A table is read exactly if it stands in the file** and its entries are declared to have the
size of a record.  The size of the table has to be a word. -/
theorem outcome_table_eq_ok_iff (hfit : Record.size α * records.length < UInt64.size) :
    (table α order offset count entrySize).outcome data = .ok records ↔
      entrySize.toNat = Record.size α ∧ records.length = count.toNat ∧
        Record.StandAt order data offset.toNat records := by
  refine ⟨standAt_of_outcome_table, fun ⟨hsize, hcount, hat⟩ => ?_⟩
  have hregion : Region.table offset count entrySize data.length =
      .ok ⟨offset, count * entrySize⟩ := by
    rw [Region.table, if_pos (by rwa [hsize, Nat.mul_comm, ← hcount])]
  have hr := (Region.table_eq_ok_iff.1 hregion).2
  refine outcome_table_eq_ok_iff_exists.2
    ⟨hsize, _, hregion, _, ?_, Record.parseAll?_encodeAll order records⟩
  rw [hr, hsize, Nat.mul_comm, ← hcount]
  exact hat

/-- The step at which a table with the right entry size is refused. -/
theorem outcome_table_eq_error_iff_exists {e : DecodeError}
    (hsize : entrySize.toNat = Record.size α) :
    (table α order offset count entrySize).outcome data = .error e ↔
      Region.table offset count entrySize data.length = .error e ∨
        ∃ r, Region.table offset count entrySize data.length = .ok r ∧
          data.length < r.stop ∧ e = .truncatedTable r.offset r.size data.length := by
  -- every byte string has records, so the last step cannot fail
  have hrecords : ∀ bytes, inside (Record.parseAll? (α := α) order bytes) ≠ .error e := by
    intro bytes h
    have hsome := Record.isSome_parseAll? (α := α) order bytes
    rw [(inside_eq_error_iff.1 h).1] at hsome
    cases hsome
  simp only [table, bind_eq, lift_eq, outcome_bind_eq_error_iff, outcome_done,
    require_eq_error_iff, hsize, not_true_eq_false, false_and, false_or, require_eq_ok_iff,
    true_and, exists_const, outcome_length, Except.ok.injEq, exists_eq_left', reduceCtorEq,
    hrecords, and_false, or_false, outcome_read_eq_error_iff]

/-- **A table is refused** if its entries are declared to have a foreign size, and otherwise if it
ends past the end of the file.  The size that the cause gives is the one of the table, or the
largest word. -/
theorem outcome_table_eq_error_iff {e : DecodeError} (hlen : data.length < 2 ^ 64) :
    (table α order offset count entrySize).outcome data = .error e ↔
      (entrySize.toNat ≠ Record.size α ∧
        e = .layoutMismatch (Record.kind α) (.ofNat (Record.size α)) entrySize) ∨
      (entrySize.toNat = Record.size α ∧
        data.length < offset.toNat + count.toNat * Record.size α ∧
        ∃ size : UInt64, size.toNat = min (count.toNat * Record.size α) (2 ^ 64 - 1) ∧
          e = .truncatedTable offset size data.length) := by
  by_cases hsize : entrySize.toNat = Record.size α
  · rw [outcome_table_eq_error_iff_exists hsize, ← hsize]
    simp only [ne_eq, not_true_eq_false, false_and, false_or, true_and]
    constructor
    · rintro (h | ⟨r, hr, hlt, rfl⟩)
      · obtain ⟨hle, rfl⟩ := Region.table_eq_error_iff.1 h
        have hmax : (0xffffffffffffffff : UInt64).toNat = 2 ^ 64 - 1 := rfl
        exact ⟨by omega, _, by omega, rfl⟩
      · obtain ⟨rfl, hwhole⟩ := Region.table_eq_ok_iff.1 hr
        have hword := r.size.toNat_lt
        rw [Region.stop, hwhole] at hlt
        exact ⟨hlt, r.size, by omega, rfl⟩
    · rintro ⟨hlt, size, hwhole, rfl⟩
      by_cases hword : count.toNat * entrySize.toNat < 2 ^ 64
      · have hr : Region.table offset count entrySize data.length = .ok ⟨offset, size⟩ :=
          Region.table_eq_ok_iff.2 ⟨rfl, by rw [hwhole]; omega⟩
        refine .inr ⟨_, hr, ?_, rfl⟩
        change data.length < offset.toNat + size.toNat
        omega
      · have hmax : size = 0xffffffffffffffff :=
          UInt64.toNat_inj.1 (hwhole.trans (Nat.min_eq_right (by omega)))
        exact .inl (Region.table_eq_error_iff.2 ⟨Nat.not_lt.1 hword, by rw [hmax]⟩)
  · simp [table, outcome_bind_eq_error_iff, require_eq_error_iff, require_eq_ok_iff, hsize,
      eq_comm (a := e)]

end Plan

end ElfAnatomy
