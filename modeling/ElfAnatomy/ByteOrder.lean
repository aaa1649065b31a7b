import ElfAnatomy.Bytes

/-!
# Byte order and fixed-width words

The value of a word of `width` bytes is a natural number below `capacity width`, that is 256 to
the power `width`; a byte order says in which direction its base-256 digits are written.

* `ByteOrder.value`, `ByteOrder.digits` : from bytes to the number and back.
* `Word α` : a type of fixed-width words (`UInt16`, `UInt32`, `UInt64` and the signed `Int64`).
* `ByteOrder.encode`, `ByteOrder.field?` : a word as bytes, and the word at an offset.

`field?_eq_some_iff` says that a field holds exactly the bytes its word is written as.
-/

namespace ElfAnatomy

/-- The direction in which the bytes of a word are written. -/
inductive ByteOrder
  /-- Least significant byte first. -/
  | little
  /-- Most significant byte first. -/
  | big
deriving DecidableEq, Repr

/-- How many numbers can be written in `width` bytes. -/
def capacity : Nat → Nat
  | 0 => 1
  | width + 1 => 256 * capacity width

/-- A type of words of a fixed number of bytes. -/
class Word (α : Type) where
  /-- The number of bytes of a word. -/
  width : Nat
  /-- The word of a number below the capacity. -/
  ofNat : Nat → α
  /-- The number that a word stands for. -/
  toNat : α → Nat

/-- Words and the numbers below their capacity correspond one to one. -/
class LawfulWord (α : Type) [Word α] : Prop where
  ofNat_toNat : ∀ a : α, Word.ofNat (Word.toNat a) = a
  toNat_lt : ∀ a : α, Word.toNat a < capacity (Word.width α)
  toNat_ofNat : ∀ n : Nat, n < capacity (Word.width α) → Word.toNat (Word.ofNat n : α) = n

instance : Word UInt16 := ⟨2, .ofNat, UInt16.toNat⟩
instance : Word UInt32 := ⟨4, .ofNat, UInt32.toNat⟩
instance : Word UInt64 := ⟨8, .ofNat, UInt64.toNat⟩

/-- Signed words are written as their two's complement. -/
instance : Word Int64 := ⟨8, fun n => (UInt64.ofNat n).toInt64, fun i => i.toUInt64.toNat⟩

@[simp] theorem width_uint16 : Word.width UInt16 = 2 := rfl
@[simp] theorem width_uint32 : Word.width UInt32 = 4 := rfl
@[simp] theorem width_uint64 : Word.width UInt64 = 8 := rfl
@[simp] theorem width_int64 : Word.width Int64 = 8 := rfl

instance : LawfulWord UInt16 where
  ofNat_toNat _ := UInt16.ofNat_toNat
  toNat_lt a := a.toNat_lt
  toNat_ofNat _ h := UInt16.toNat_ofNat_of_lt' h

instance : LawfulWord UInt32 where
  ofNat_toNat _ := UInt32.ofNat_toNat
  toNat_lt a := a.toNat_lt
  toNat_ofNat _ h := UInt32.toNat_ofNat_of_lt' h

instance : LawfulWord UInt64 where
  ofNat_toNat _ := UInt64.ofNat_toNat
  toNat_lt a := a.toNat_lt
  toNat_ofNat _ h := UInt64.toNat_ofNat_of_lt' h

instance : LawfulWord Int64 where
  ofNat_toNat a := by simp [Word.ofNat, Word.toNat]
  toNat_lt a := a.toUInt64.toNat_lt
  toNat_ofNat n h := by
    simp only [Word.ofNat, Word.toNat, UInt64.toUInt64_toInt64]
    exact UInt64.toNat_ofNat_of_lt' h

namespace ByteOrder

/-- The number whose base-256 digits are `bs`, least significant first. -/
def ascending : Bytes → Nat
  | [] => 0
  | b :: bs => b.toNat + 256 * ascending bs

/-- The `width` lowest base-256 digits of `n`, least significant first. -/
def ascendingDigits : Nat → Nat → Bytes
  | 0, _ => []
  | width + 1, n => UInt8.ofNat n :: ascendingDigits width (n / 256)

/-- The number that the bytes stand for. -/
def value : ByteOrder → Bytes → Nat
  | little, bs => ascending bs
  | big, bs => ascending bs.reverse

/-- The number `n` in `width` bytes. -/
def digits : ByteOrder → Nat → Nat → Bytes
  | little, width, n => ascendingDigits width n
  | big, width, n => (ascendingDigits width n).reverse

variable {α : Type} [Word α]

/-- The bytes of a word. -/
def encode (order : ByteOrder) (a : α) : Bytes := order.digits (Word.width α) (Word.toNat a)

/-- The word that starts at `offset`, if all of its bytes are there. -/
def field? (order : ByteOrder) (bs : Bytes) (offset : Nat) : Option α :=
  (bs.slice? offset (Word.width α)).map fun part => Word.ofNat (order.value part)

/-! ### Digits and values -/

theorem length_ascendingDigits (width n : Nat) : (ascendingDigits width n).length = width := by
  induction width generalizing n with
  | zero => rfl
  | succ width ih => simp [ascendingDigits, ih]

theorem ascending_ascendingDigits {width n : Nat} (h : n < capacity width) :
    ascending (ascendingDigits width n) = n := by
  induction width generalizing n with
  | zero => simp only [capacity, Nat.lt_one_iff] at h; simp [ascendingDigits, ascending, h]
  | succ width ih =>
    rw [ascendingDigits, ascending, ih (Nat.div_lt_of_lt_mul h)]
    simp only [UInt8.toNat_ofNat']
    omega

theorem ascending_lt (bs : Bytes) : ascending bs < capacity bs.length := by
  induction bs with
  | nil => simp [ascending, capacity]
  | cons b bs ih =>
    have := b.toNat_lt
    rw [ascending, List.length_cons, capacity]
    omega

theorem ascendingDigits_ascending (bs : Bytes) :
    ascendingDigits bs.length (ascending bs) = bs := by
  induction bs with
  | nil => rfl
  | cons b bs ih =>
    have hb := b.toNat_lt
    have hlow : UInt8.ofNat (b.toNat + 256 * ascending bs) = b := by
      apply UInt8.toNat.inj
      simp only [UInt8.toNat_ofNat']
      omega
    have hhigh : (b.toNat + 256 * ascending bs) / 256 = ascending bs := by omega
    rw [List.length_cons, ascending, ascendingDigits, hlow, hhigh, ih]

@[simp] theorem length_digits (order : ByteOrder) (width n : Nat) :
    (order.digits width n).length = width := by
  cases order <;> simp [digits, length_ascendingDigits]

theorem value_digits (order : ByteOrder) {width n : Nat} (h : n < capacity width) :
    order.value (order.digits width n) = n := by
  cases order <;> simp [value, digits, ascending_ascendingDigits h]

theorem value_lt (order : ByteOrder) (bs : Bytes) : order.value bs < capacity bs.length := by
  cases order
  · exact ascending_lt bs
  · simpa [value] using ascending_lt bs.reverse

theorem digits_value (order : ByteOrder) (bs : Bytes) :
    order.digits bs.length (order.value bs) = bs := by
  cases order
  · exact ascendingDigits_ascending bs
  · have := ascendingDigits_ascending bs.reverse
    rw [List.length_reverse] at this
    simp [digits, value, this]

/-! ### Words -/

@[simp] theorem length_encode (order : ByteOrder) (a : α) :
    (order.encode a).length = Word.width α := length_digits ..

/-- A field holds a word exactly if it lies inside and consists of that word's bytes. -/
theorem field?_eq_some_iff [LawfulWord α] {order : ByteOrder} {bs : Bytes} {offset : Nat}
    {a : α} :
    order.field? bs offset = some a ↔
      bs.slice? offset (Word.width α) = some (order.encode a) := by
  rw [field?, Option.map_eq_some_iff]
  constructor
  · rintro ⟨part, hp, rfl⟩
    have hlen := Bytes.length_of_slice? hp
    have hlt := order.value_lt part
    rw [hlen] at hlt
    rw [hp, encode, LawfulWord.toNat_ofNat _ hlt, ← hlen, digits_value]
  · intro h
    exact ⟨_, h, by
      rw [encode, value_digits _ (LawfulWord.toNat_lt a), LawfulWord.ofNat_toNat]⟩

theorem field?_eq_none_iff {order : ByteOrder} {bs : Bytes} {offset : Nat} :
    (order.field? bs offset : Option α) = none ↔ bs.length < offset + Word.width α := by
  rw [field?, Option.map_eq_none_iff, Bytes.slice?_eq_none_iff]

theorem exists_field? (α : Type) [Word α] (order : ByteOrder) (bs : Bytes) (offset : Nat)
    (h : offset + Word.width α ≤ bs.length) : ∃ a : α, order.field? bs offset = some a := by
  refine Option.isSome_iff_exists.1 (Option.isSome_iff_ne_none.2 fun hn => ?_)
  have := field?_eq_none_iff.1 hn
  omega

/-- A field continues the bytes before it. -/
theorem take_of_field? [LawfulWord α] {order : ByteOrder} {bs : Bytes} {offset : Nat} {a : α}
    (h : order.field? bs offset = some a) :
    bs.take (offset + Word.width α) = bs.take offset ++ order.encode a := by
  rw [List.take_add, (Bytes.slice?_eq_some_iff.1 (field?_eq_some_iff.1 h)).2]

/-- A word written at the start is read back. -/
theorem field?_encode [LawfulWord α] (order : ByteOrder) (a : α) (rest : Bytes) :
    order.field? (order.encode a ++ rest) 0 = some a := by
  rw [field?_eq_some_iff, ← order.length_encode a]
  exact Bytes.slice?_append [] (order.encode a) rest

/-- Bytes in front of a field are skipped. -/
theorem field?_append_of_le (order : ByteOrder) {before : Bytes} (rest : Bytes) {offset : Nat}
    (h : before.length ≤ offset) :
    (order.field? (before ++ rest) offset : Option α) =
      order.field? rest (offset - before.length) := by
  simp only [field?, Bytes.slice?, List.length_append, List.drop_append, List.drop_eq_nil_of_le h,
    List.nil_append]
  congr 1
  exact ite_congr (propext (by omega)) (fun _ => rfl) fun _ => rfl

end ByteOrder

end ElfAnatomy
