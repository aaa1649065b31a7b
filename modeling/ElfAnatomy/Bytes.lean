/-!
# Byte strings

A byte string is a list of bytes.  Whatever a step needs of it is asked for by offset and size,
and a request that does not fit is answered by `none`, never by shorter bytes.

* `Bytes.slice?` : the bytes of a region, if all of them are there.
* `Bytes.chunks` : the whole blocks of a fixed size.
* `Bytes.untilNul?` : the bytes before the first NUL, if there is one.

The lemmas say when an answer exists and which bytes it holds; `chunks_flatten` undoes
concatenation of blocks of one size.
-/

namespace ElfAnatomy

/-- A byte string. -/
abbrev Bytes := List UInt8

namespace Bytes

/-- The `size` bytes from `offset` on, if the byte string holds all of them. -/
def slice? (bs : Bytes) (offset size : Nat) : Option Bytes :=
  if offset + size ≤ bs.length then some ((bs.drop offset).take size) else none

/-- The first `count` blocks of `size` bytes each. -/
def blocks (size : Nat) : Nat → Bytes → List Bytes
  | 0, _ => []
  | count + 1, bs => bs.take size :: blocks size count (bs.drop size)

/-- All whole blocks of `size` bytes, in order; an incomplete last block is left out. -/
def chunks (size : Nat) (bs : Bytes) : List Bytes := blocks size (bs.length / size) bs

/-- The bytes before the first NUL byte, if there is one. -/
def untilNul? (bs : Bytes) : Option Bytes :=
  if 0 ∈ bs then some (bs.takeWhile (· != 0)) else none

/-! ### Slices -/

theorem slice?_eq_some_iff {bs part : Bytes} {offset size : Nat} :
    bs.slice? offset size = some part ↔
      offset + size ≤ bs.length ∧ (bs.drop offset).take size = part := by
  simp [slice?]

theorem slice?_eq_none_iff {bs : Bytes} {offset size : Nat} :
    bs.slice? offset size = none ↔ bs.length < offset + size := by
  simp [slice?]

theorem length_of_slice? {bs part : Bytes} {offset size : Nat}
    (h : bs.slice? offset size = some part) : part.length = size := by
  obtain ⟨hle, rfl⟩ := slice?_eq_some_iff.1 h
  simp only [List.length_take, List.length_drop]
  omega

/-- A slice that lies between two known parts. -/
theorem slice?_append (before part after : Bytes) :
    slice? (before ++ part ++ after) before.length part.length = some part := by
  simp [slice?]

/-! ### Blocks -/

theorem flatten_blocks (size count : Nat) (bs : Bytes) :
    (blocks size count bs).flatten = bs.take (size * count) := by
  induction count generalizing bs with
  | zero => simp [blocks]
  | succ count ih =>
    rw [blocks, List.flatten_cons, ih, Nat.mul_succ, Nat.add_comm, List.take_add]

theorem length_of_mem_blocks {size count : Nat} {bs block : Bytes}
    (h : size * count ≤ bs.length) (hb : block ∈ blocks size count bs) :
    block.length = size := by
  induction count generalizing bs with
  | zero => simp [blocks] at hb
  | succ count ih =>
    rw [Nat.mul_succ] at h
    rcases List.mem_cons.1 hb with rfl | hb
    · simp only [List.length_take]
      omega
    · exact ih (by simp only [List.length_drop]; omega) hb

theorem blocks_flatten {size : Nat} {parts : List Bytes} (rest : Bytes)
    (h : ∀ part ∈ parts, part.length = size) :
    blocks size parts.length (parts.flatten ++ rest) = parts := by
  induction parts with
  | nil => rfl
  | cons part parts ih =>
    obtain ⟨rfl, h⟩ := List.forall_mem_cons.1 h
    rw [List.length_cons, blocks, List.flatten_cons, List.append_assoc, List.take_left,
      List.drop_left, ih h]

theorem length_of_mem_chunks {size : Nat} {bs block : Bytes} (hb : block ∈ chunks size bs) :
    block.length = size :=
  length_of_mem_blocks (Nat.mul_div_le _ _) hb

/-- Blocks of one positive size, joined, are the chunks of what they form. -/
theorem chunks_flatten {size : Nat} (hs : 0 < size) {parts : List Bytes}
    (h : ∀ part ∈ parts, part.length = size) : chunks size parts.flatten = parts := by
  have hlen : parts.flatten.length = size * parts.length := by
    induction parts with
    | nil => simp
    | cons part parts ih =>
      obtain ⟨hp, h⟩ := List.forall_mem_cons.1 h
      rw [List.flatten_cons, List.length_append, List.length_cons, ih h, hp, Nat.mul_succ,
        Nat.add_comm]
  have := blocks_flatten [] h
  rwa [List.append_nil, ← Nat.mul_div_cancel_left parts.length hs, ← hlen] at this

/-- The chunks of a whole number of blocks join to the bytes themselves. -/
theorem flatten_chunks {size count : Nat} {bs : Bytes} (h : bs.length = size * count) :
    (chunks size bs).flatten = bs := by
  rw [chunks, flatten_blocks, List.take_of_length_le]
  rw [h]
  rcases Nat.eq_zero_or_pos size with rfl | hs
  · simp
  · exact Nat.le_of_eq (congrArg (size * ·) (Nat.mul_div_cancel_left _ hs).symm)

/-! ### NUL-terminated bytes -/

theorem untilNul?_eq_some_iff {bs name : Bytes} :
    bs.untilNul? = some name ↔ 0 ∉ name ∧ ∃ rest, bs = name ++ 0 :: rest := by
  induction bs generalizing name with
  | nil => simp [untilNul?]
  | cons b bs ih =>
    by_cases hb : b = 0
    · subst hb
      cases name with
      | nil => simp [untilNul?]
      | cons n name => simp +contextual [untilNul?, eq_comm]
    · have hb' : (0 : UInt8) ≠ b := fun h => hb h.symm
      have hcons : untilNul? (b :: bs) = (untilNul? bs).map (b :: ·) := by
        simp only [untilNul?, List.mem_cons, hb', false_or, List.takeWhile_cons, bne_iff_ne, ne_eq,
          hb, not_false_eq_true, if_true]
        split <;> rfl
      rw [hcons]
      cases name with
      | nil => simp [hb]
      | cons n name =>
        simp only [Option.map_eq_some_iff, List.cons.injEq, List.cons_append, List.mem_cons]
        constructor
        · rintro ⟨x, hx, rfl, rfl⟩
          obtain ⟨h0, rest, rfl⟩ := ih.1 hx
          exact ⟨by simp [h0, hb'], rest, rfl, rfl⟩
        · rintro ⟨h0, rest, rfl, hrest⟩
          exact ⟨name, ih.2 ⟨fun h => h0 (.inr h), rest, hrest⟩, rfl, rfl⟩

theorem untilNul?_eq_none_iff {bs : Bytes} : bs.untilNul? = none ↔ 0 ∉ bs := by
  simp [untilNul?]

end Bytes

end ElfAnatomy
