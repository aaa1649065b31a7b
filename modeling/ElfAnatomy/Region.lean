import ElfAnatomy.DecodeError

/-!
# Regions of a file

A region is an offset and a size, both 64-bit words taken from the file.  It lies in a source if
it ends at or before the end of the source, where the end is the exact sum of the two words.

* `Region.check` : refuses a region that does not lie in the source.
* `Region.table` : the region of a table of equal entries, unless its size is no 64-bit word.
-/

namespace ElfAnatomy

/-- A region of a file. -/
structure Region where
  offset : UInt64
  size : UInt64
deriving DecidableEq, Repr

namespace Region

/-- The offset right after the region, as an exact sum. -/
def stop (r : Region) : Nat := r.offset.toNat + r.size.toNat

/-- Refuses a region that ends past a source of `length` bytes. -/
def check (r : Region) (length : Nat) : Except DecodeError Unit :=
  require (r.stop ≤ length) (.truncatedTable r.offset r.size length)

/-- The region of `count` entries of `entrySize` bytes at `offset`.  A table of `2 ^ 64` bytes or
more lies in no source; the cause then gives the largest size there is. -/
def table (offset count entrySize : UInt64) (length : Nat) : Except DecodeError Region :=
  if count.toNat * entrySize.toNat < UInt64.size then .ok ⟨offset, count * entrySize⟩
  else .error (.truncatedTable offset 0xffffffffffffffff length)

@[simp] theorem check_eq_ok_iff {r : Region} {length : Nat} {u : Unit} :
    r.check length = .ok u ↔ r.stop ≤ length := by
  simp [check]

theorem check_eq_error_iff {r : Region} {length : Nat} {e : DecodeError} :
    r.check length = .error e ↔
      length < r.stop ∧ e = .truncatedTable r.offset r.size length := by
  rw [check, require_eq_error_iff, Nat.not_le, eq_comm (a := e)]

theorem table_eq_ok_iff {offset count entrySize : UInt64} {length : Nat} {r : Region} :
    table offset count entrySize length = .ok r ↔
      r.offset = offset ∧ r.size.toNat = count.toNat * entrySize.toNat := by
  rw [table]
  split
  · rename_i h
    have hmul : (count * entrySize).toNat = count.toNat * entrySize.toNat := by
      rw [UInt64.toNat_mul, Nat.mod_eq_of_lt h]
    simp only [Except.ok.injEq, ← hmul, UInt64.toNat_inj]
    constructor
    · rintro rfl; exact ⟨rfl, rfl⟩
    · rintro ⟨rfl, h⟩; rw [← h]
  · rename_i h
    simp only [reduceCtorEq, false_iff, not_and]
    intro _ hr
    exact h (hr ▸ r.size.toNat_lt)

end Region

end ElfAnatomy
