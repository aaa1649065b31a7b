import ElfAnatomy.Proofs.Strings

/-!
# Partial steps inside their domains

Some functions are total only by convention: a difference of words wraps around, and a slice past
the end is empty.  Here they are written once more, with each such step tried: `none` means that
it was made outside its domain.  The answer is never `none`, and is that of the function itself.

* `SectionHeader.containsAddrChecked_eq`, `locateAddressChecked_eq` : no address is subtracted
  from a smaller one.
* `StringTable.resolveChecked_eq`, `StringTable.windowChecked_eq` : no slice of a string table
  leads outside.
* `Image.sectionByNameChecked_eq` : every name has its section.
-/

namespace ElfAnatomy

/-! ### Addresses -/

/-- The difference of two words, of which the second one must not be larger. -/
def subtract? (a b : UInt64) : Option UInt64 := if b ≤ a then some (a - b) else none

theorem subtract?_of_le {a b : UInt64} (h : b ≤ a) : subtract? a b = some (a - b) := if_pos h

namespace SectionHeader

/-- Whether the address lies in the memory of the section. -/
def containsAddrChecked (s : SectionHeader) (addr : UInt64) : Option Bool :=
  if s.addr != 0 && s.addr ≤ addr then
    (subtract? addr s.addr).map fun offset => offset < s.size
  else some false

theorem containsAddrChecked_eq (s : SectionHeader) (addr : UInt64) :
    s.containsAddrChecked addr = some (s.containsAddr addr) := by
  unfold containsAddrChecked containsAddr
  split
  · rename_i h
    have hle : s.addr ≤ addr := by
      simp only [Bool.and_eq_true, decide_eq_true_eq] at h
      exact h.2
    rw [subtract?_of_le hle, h]
    rfl
  · rename_i h
    rw [eq_false_of_ne_true h]
    rfl

end SectionHeader

/-- The section of the file that holds the address. -/
def locateAddressChecked (sections : List SectionHeader) (addr : UInt64) :
    Option (Option Location) := do
  let inFile := sections.zipIdx.filter fun p => p.1.occupiesFile
  let found ←
    match inFile.find? fun p => p.1.addr == addr && p.1.addr != 0 with
    | some p => some (some p)
    | none => inFile.findM? fun p => p.1.containsAddrChecked addr
  match found with
  | none => return none
  | some p => return some ⟨p.2, p.1, ← subtract? addr p.1.addr⟩

theorem locateAddressChecked_eq (sections : List SectionHeader) (addr : UInt64) :
    locateAddressChecked sections addr = some (locateAddress? sections addr) := by
  have hfind : ∀ l : List (SectionHeader × Nat),
      l.findM? (fun p => p.1.containsAddrChecked addr) =
        some (l.find? fun p => p.1.containsAddr addr) := by
    intro l
    simp only [SectionHeader.containsAddrChecked_eq]
    exact List.findM?_pure (m := Option) (fun p : SectionHeader × Nat => p.1.containsAddr addr) l
  -- either search finds a section that starts at the address or below
  have hle : ∀ place, locateAddress? sections addr = some place →
      place.header.addr ≤ addr := fun place h =>
    UInt64.le_iff_toNat_le.2 (of_locateAddress? h).2.2.1
  unfold locateAddressChecked
  unfold locateAddress? at hle ⊢
  simp only [hfind] at hle ⊢
  cases hstart : (sections.zipIdx.filter fun p => p.1.occupiesFile).find?
      fun p => p.1.addr == addr && p.1.addr != 0 with
  | some p =>
    rw [hstart] at hle
    have := hle _ rfl
    simp [subtract?_of_le this]
  | none =>
    rw [hstart] at hle
    cases hin : (sections.zipIdx.filter fun p => p.1.occupiesFile).find?
        fun p => p.1.containsAddr addr with
    | some p =>
      rw [hin] at hle
      have := hle _ rfl
      simp [subtract?_of_le this]
    | none => simp

/-! ### String tables -/

namespace Bytes

/-- All bytes from `start` on. -/
theorem slice?_rest {bs : Bytes} {start : Nat} (h : start ≤ bs.length) :
    bs.slice? start (bs.length - start) = some (bs.drop start) := by
  refine slice?_eq_some_iff.2 ⟨by omega, ?_⟩
  exact List.take_of_length_le (Nat.le_of_eq List.length_drop)

/-- The first `size` bytes. -/
theorem slice?_front {bs : Bytes} {size : Nat} (h : size ≤ bs.length) :
    bs.slice? 0 size = some (bs.take size) :=
  slice?_eq_some_iff.2 ⟨by omega, rfl⟩

/-- The bytes up to a NUL are those before the place where it is found. -/
theorem untilNul?_eq_map_take (bs : Bytes) :
    bs.untilNul? = (bs.findIdx? (· == 0)).map fun n => bs.take n := by
  unfold untilNul?
  by_cases h0 : 0 ∈ bs
  · have hfind : bs.findIdx? (· == 0) = some (bs.findIdx (· == 0)) :=
      List.findIdx?_eq_some_of_exists ⟨0, h0, rfl⟩
    have hnot : (fun b : UInt8 => !(b != 0)) = (· == 0) := funext fun b => by simp [bne]
    rw [if_pos h0, hfind, List.takeWhile_eq_take_findIdx_not, hnot]
    rfl
  · have hfind : bs.findIdx? (· == 0) = none := by
      rw [List.findIdx?_eq_none_iff]
      intro b hb
      exact beq_false_of_ne fun h => h0 (h ▸ hb)
    rw [if_neg h0, hfind]
    rfl

end Bytes

namespace StringTable

/-- The string that starts at `offset`. -/
def resolveChecked (t : StringTable) (offset : UInt64) : Option (Except DecodeError String) :=
  if offset.toNat < t.bytes.length then do
    let rest ← t.bytes.slice? offset.toNat (t.bytes.length - offset.toNat)
    match rest.findIdx? (· == 0) with
    | none => return .error (.unterminatedString offset)
    | some nul =>
      let name ← rest.slice? 0 nul
      match Utf8.decode? name with
      | none => return .error (.invalidUtf8 offset)
      | some text => return .ok text
  else return .error (.offsetOutOfRange offset t.bytes.length)

theorem resolveChecked_eq (t : StringTable) (offset : UInt64) :
    t.resolveChecked offset = some (t.resolve offset) := by
  unfold resolveChecked
  by_cases hin : offset.toNat < t.bytes.length
  · rw [resolve_of_lt hin]
    simp only [if_pos hin, Bytes.slice?_rest (Nat.le_of_lt hin), Bytes.untilNul?_eq_map_take,
      Option.bind_eq_bind, Option.bind_some]
    generalize t.bytes.drop offset.toNat = rest
    cases hnul : rest.findIdx? (· == 0) with
    | none => rfl
    | some nul =>
      have hle : nul ≤ rest.length :=
        Nat.le_of_lt (List.findIdx?_eq_some_iff_getElem.1 hnul).1
      simp only [Bytes.slice?_front hle, Option.map_some, Option.bind_some]
      cases Utf8.decode? (rest.take nul) <;> rfl
  · rw [resolve_of_le (Nat.not_lt.1 hin), if_neg hin]
    rfl

/-- The table from `start` on, or an empty one if it does not reach that far, cut off after `size`
bytes if it has more. -/
def windowChecked (t : StringTable) (start : Nat) (size : Option Nat) : Option StringTable :=
  let rest : Bytes := (t.bytes.slice? start (t.bytes.length - start)).getD []
  match size with
  | some size => (rest.slice? 0 (min size rest.length)).map StringTable.mk
  | none => some ⟨rest⟩

theorem windowChecked_eq (t : StringTable) (start : Nat) (size : Option Nat) :
    t.windowChecked start size = some (t.window start size) := by
  have hrest : (t.bytes.slice? start (t.bytes.length - start)).getD [] = t.bytes.drop start := by
    by_cases hle : start ≤ t.bytes.length
    · rw [Bytes.slice?_rest hle, Option.getD_some]
    · rw [Bytes.slice?_eq_none_iff.2 (by omega), Option.getD_none]
      exact (List.drop_eq_nil_iff.2 (Nat.le_of_not_le hle)).symm
  unfold windowChecked window
  simp only [hrest]
  cases size with
  | none => rfl
  | some size =>
    simp only [Bytes.slice?_front (Nat.min_le_right _ _), ← List.take_eq_take_min,
      Option.map_some]

end StringTable

/-! ### Section names -/

namespace Image

/-- The first section with a name, with its index. -/
def sectionByNameChecked (image : Image) (name : String) :
    Option (Option (Nat × SectionHeader)) :=
  match image.names.findIdx? fun n => n == name with
  | none => some none
  | some i => image.sections[i]?.map fun s => some (i, s)

theorem sectionByNameChecked_eq {image : Image}
    (h : image.names.length = image.sections.length) (name : String) :
    image.sectionByNameChecked name = some (image.sectionByName? name) := by
  unfold sectionByNameChecked sectionByName?
  cases hi : image.names.findIdx? fun n => n == name with
  | none => rfl
  | some i =>
    have hlt := (List.findIdx?_eq_some_iff_getElem.1 hi).1
    rw [h] at hlt
    simp only [Option.bind_some, List.getElem?_eq_getElem hlt, Option.map_some]

end Image

end ElfAnatomy
