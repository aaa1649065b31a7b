import ElfAnatomy.Proofs.Reading

/-!
# Reading the file header

The header is read in steps: signature, class, length, byte order, fields, and at last whether the
tables that it declares fit.

* `FileClass.ofStart_eq_ok_iff`, `FileHeader.parseFields_eq_ok_iff` : the steps on the first bytes.
* `FileHeader.checkTables_eq_ok_iff` : the check of the tables, as exact sums and products.
* `FileHeader.outcome_readStaged_eq_ok_iff` : the header that is read is the one that stands in
  the file.
-/

namespace ElfAnatomy

/-! ### Identification -/

namespace FileClass

theorem ofByte_eq_ok_iff {b : UInt8} {c : FileClass} : ofByte b = .ok c ↔ b = c.byte := by
  unfold ofByte
  by_cases h1 : b = 1
  · subst h1
    cases c <;> simp [byte]
  · by_cases h2 : b = 2
    · subst h2
      cases c <;> simp [byte]
    · cases c <;> simp [byte, h1, h2]

theorem ofStart_eq_ok_iff {bs : Bytes} {c : FileClass} :
    ofStart bs = .ok c ↔ bs.take 4 = signature ∧ bs[4]? = some c.byte := by
  simp only [ofStart, bind_eq_ok_iff, checkSignature, require_eq_ok_iff, exists_const]
  refine and_congr_right fun _ => ?_
  cases bs[4]? with
  | none => simp
  | some b => simp [ofByte_eq_ok_iff]

end FileClass

namespace FileHeader

variable {h : FileHeader} {data : Bytes} {u : Unit}

/-! ### Fields -/

theorem parseFields_eq_ok_iff {bs : Bytes} :
    parseFields bs = .ok h ↔
      64 ≤ bs.length ∧ bs[5]? = some h.byteOrder.byte ∧ bs.take 64 = h.encode := by
  simp only [parseFields, bind_eq_ok_iff, require_eq_ok_iff, exists_const, inside_eq_ok_iff,
    ByteOrder.ofByte_eq_ok_iff, fields?_eq_some_iff]
  constructor
  · rintro ⟨hlen, b, hb, order, rfl, -, rfl, henc⟩
    exact ⟨hlen, hb, henc.symm⟩
  · rintro ⟨hlen, hb, henc⟩
    exact ⟨hlen, _, hb, _, rfl, hlen, rfl, henc.symm⟩

/-! ### Tables -/

theorem hasSections_iff : h.hasSections = true ↔ ¬ (h.shnum = 0 ∧ h.shoff = 0) := by
  simp only [hasSections, Bool.or_eq_true, bne_iff_ne, ne_eq]
  tauto

theorem toUInt64_eq_iff {found : UInt16} {expected : UInt64} :
    found.toUInt64 = expected ↔ found.toNat = expected.toNat := by
  rw [← UInt64.toNat_inj, UInt16.toNat_toUInt64]

theorem toNat_max (a b : UInt16) : (max a b).toNat = max a.toNat b.toNat := by
  change (if a ≤ b then b else a).toNat = _
  simp only [UInt16.le_iff_toNat_le]
  split <;> omega

/-- A table of at most `2 ^ 16` small entries has a region. -/
theorem table_check_eq_ok_iff {offset count entrySize : UInt64} {length : Nat}
    (hsmall : count.toNat * entrySize.toNat < 2 ^ 64) :
    ((Region.table offset count entrySize length >>= fun r => r.check length) = .ok u) ↔
      offset.toNat + entrySize.toNat * count.toNat ≤ length := by
  simp only [bind_eq_ok_iff, Region.table_eq_ok_iff, Region.check_eq_ok_iff, Region.stop]
  constructor
  · rintro ⟨r, ⟨rfl, hr⟩, hle⟩
    rwa [hr, Nat.mul_comm] at hle
  · intro hle
    refine ⟨⟨offset, count * entrySize⟩, ⟨rfl, ?_⟩, ?_⟩
    · rw [UInt64.toNat_mul, Nat.mod_eq_of_lt hsmall]
    · rw [UInt64.toNat_mul, Nat.mod_eq_of_lt hsmall, Nat.mul_comm]
      exact hle

theorem checkSegmentTable_eq_ok_iff {length : Nat} :
    h.checkSegmentTable length = .ok u ↔
      h.phnum = 0 ∨
        h.phentsize = 56 ∧ (h.phnum = 0xffff ∨ h.phoff.toNat + 56 * h.phnum.toNat ≤ length) := by
  have hsize : h.phentsize.toUInt64 = segmentEntrySize ↔ h.phentsize = 56 := by
    rw [toUInt64_eq_iff, ← UInt16.toNat_inj]
    rfl
  -- the number has 16 bits, so the size of the table is a word
  have hsmall : h.phnum.toUInt64.toNat * segmentEntrySize.toNat < 2 ^ 64 := by
    have := h.phnum.toNat_lt
    rw [UInt16.toNat_toUInt64]
    change _ * 56 < _
    omega
  unfold checkSegmentTable
  split
  · rename_i h0
    simp [h0]
  · rename_i h0
    simp only [checkEntrySize, bind_eq_ok_iff (x := require _ _), require_eq_ok_iff, exists_const,
      hsize, h0, false_or]
    refine and_congr_right fun _ => ?_
    split
    · rename_i hx
      simp [hx, deferredSegments]
    · rename_i hx
      rw [table_check_eq_ok_iff hsmall, or_iff_right (show h.phnum ≠ 0xffff from hx),
        UInt16.toNat_toUInt64]
      rfl

theorem checkSectionTable_eq_ok_iff {length : Nat} :
    h.checkSectionTable length = .ok u ↔
      h.shnum = 0 ∧ h.shoff = 0 ∨
        h.shentsize = 64 ∧ h.shoff.toNat + 64 * max h.shnum.toNat 1 ≤ length := by
  have hsize : h.shentsize.toUInt64 = sectionEntrySize ↔ h.shentsize = 64 := by
    rw [toUInt64_eq_iff, ← UInt16.toNat_inj]
    rfl
  have hcount : (max h.shnum 1).toUInt64.toNat = max h.shnum.toNat 1 := by
    rw [UInt16.toNat_toUInt64, toNat_max]
    rfl
  have hsmall : (max h.shnum 1).toUInt64.toNat * sectionEntrySize.toNat < 2 ^ 64 := by
    have := h.shnum.toNat_lt
    rw [hcount]
    change _ * 64 < _
    omega
  unfold checkSectionTable
  split
  · rename_i hs
    rw [hasSections_iff] at hs
    simp only [checkEntrySize, bind_eq_ok_iff (x := require _ _), require_eq_ok_iff, exists_const,
      hsize, hs, false_or]
    rw [table_check_eq_ok_iff hsmall, hcount]
    rfl
  · rename_i hs
    rw [hasSections_iff, not_not] at hs
    simp [hs]

theorem checkTables_eq_ok_iff {length : Nat} :
    h.checkTables length = .ok u ↔
      (h.phnum = 0 ∨
        h.phentsize = 56 ∧ (h.phnum = 0xffff ∨ h.phoff.toNat + 56 * h.phnum.toNat ≤ length)) ∧
      (h.shnum = 0 ∧ h.shoff = 0 ∨
        h.shentsize = 64 ∧ h.shoff.toNat + 64 * max h.shnum.toNat 1 ≤ length) := by
  simp only [checkTables, bind_eq_ok_iff, checkSegmentTable_eq_ok_iff,
    checkSectionTable_eq_ok_iff, exists_const]

/-! ### The whole header -/

/-- **The header that is read is the one that stands in the file**, with room for its tables. -/
theorem outcome_readStaged_eq_ok_iff : readStaged.outcome data = .ok h ↔ HeaderIn data h := by
  simp only [readStaged, Plan.bind_eq, Plan.outcome_bind_eq_ok_iff, Plan.lift_eq,
    Plan.outcome_done, Plan.outcome_reached, Plan.outcome_length, Plan.pure_eq,
    Plan.outcome_leading (by decide : size < 2 ^ 64), Except.ok.injEq, exists_eq_left',
    checkSignature, FileClass.require64, require_eq_ok_iff, exists_const,
    FileClass.ofStart_eq_ok_iff, parseFields_eq_ok_iff, checkTables_eq_ok_iff]
  simp only [size, List.take_take, List.length_take]
  constructor
  · -- what is read of the first 64 bytes holds of the file
    rintro ⟨hsig, -, c, ⟨-, hc⟩, rfl, -, a, ⟨hlen, hord, henc⟩, ⟨hseg, hsec⟩, -, rfl⟩
    have hlong : 64 ≤ data.length := by omega
    rw [List.getElem?_take_of_lt (by decide)] at hc hord
    exact ⟨⟨hlong, hsig, hc, hord, henc⟩, hseg, hsec⟩
  · rintro ⟨⟨hlong, hsig, hc, hord, henc⟩, hseg, hsec⟩
    rw [← List.getElem?_take_of_lt (by decide : 4 < 64)] at hc
    rw [← List.getElem?_take_of_lt (by decide : 5 < 64)] at hord
    exact ⟨hsig, trivial, .elf64, ⟨hsig, hc⟩, rfl, trivial, h,
      ⟨by omega, hord, henc⟩, ⟨hseg, hsec⟩, trivial, rfl⟩

end FileHeader

end ElfAnatomy
