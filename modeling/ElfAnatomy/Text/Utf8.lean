import ElfAnatomy.Bytes

/-!
# UTF-8

`Utf8.encode` gives the bytes of a text and `Utf8.decode?` the text of bytes.  Bytes are the
encoding of at most one text (`Utf8.decode?_eq_some_iff`), and only the NUL character is written
with a zero byte (`Utf8.zero_mem_encode_iff`).
-/

namespace ElfAnatomy.Utf8

/-- The bytes of a text. -/
def encode (text : String) : Bytes := text.toByteArray.data.toList

/-- The text of bytes, if they are well-formed. -/
def decode? (bs : Bytes) : Option String := String.fromUTF8? ⟨bs.toArray⟩

theorem decode?_eq_some_iff {bs : Bytes} {text : String} :
    decode? bs = some text ↔ bs = encode text := by
  simp only [decode?, String.fromUTF8?, encode]
  constructor
  · intro h
    split at h
    · cases h
      simp [String.fromUTF8]
    · cases h
  · rintro rfl
    have : (⟨text.toByteArray.data.toList.toArray⟩ : ByteArray) = text.toByteArray := by simp
    rw [this, dif_pos text.isValidUTF8]
    rfl

theorem decode?_eq_none_iff {bs : Bytes} : decode? bs = none ↔ ∀ text, encode text ≠ bs := by
  simp only [Option.eq_none_iff_forall_ne_some, ne_eq, decode?_eq_some_iff, eq_comm (a := bs)]

theorem encode_inj {s t : String} : encode s = encode t ↔ s = t := by
  constructor
  · intro h
    have hs := decode?_eq_some_iff.2 (rfl : encode s = encode s)
    rw [h, decode?_eq_some_iff.2 rfl] at hs
    exact (Option.some.inj hs).symm
  · rintro rfl; rfl

theorem encode_eq_flatMap (text : String) :
    encode text = text.toList.flatMap String.utf8EncodeChar := by
  rw [encode, ← String.utf8Encode_toList, List.utf8Encode, List.data_toByteArray]

theorem encode_append (s t : String) : encode (s ++ t) = encode s ++ encode t := by
  simp [encode_eq_flatMap]

theorem zero_mem_utf8EncodeChar_iff {c : Char} : 0 ∈ String.utf8EncodeChar c ↔ c = '\x00' := by
  have hhigh : ∀ n, 128 ≤ n → n < 256 → (0 : UInt8) ≠ UInt8.ofNat n := by
    intro n h128 h256 hn
    have h0 := congrArg UInt8.toNat hn
    rw [UInt8.toNat_ofNat_of_lt' h256] at h0
    change 0 = n at h0
    omega
  constructor
  · intro h
    unfold String.utf8EncodeChar at h
    simp only at h
    split at h
    · rename_i hv
      have h0 := congrArg UInt8.toNat (List.mem_singleton.1 h)
      rw [UInt8.toNat_ofNat_of_lt' (by simp only [UInt8.size]; omega)] at h0
      exact Char.ext (UInt32.toNat.inj h0.symm)
    · -- all bytes of a longer encoding have their highest bit set
      refine absurd h ?_
      split
      · simp only [List.mem_cons, List.not_mem_nil, or_false, not_or]
        exact ⟨hhigh _ (by omega) (by omega), hhigh _ (by omega) (by omega)⟩
      · split
        · simp only [List.mem_cons, List.not_mem_nil, or_false, not_or]
          exact ⟨hhigh _ (by omega) (by omega), hhigh _ (by omega) (by omega),
            hhigh _ (by omega) (by omega)⟩
        · simp only [List.mem_cons, List.not_mem_nil, or_false, not_or]
          exact ⟨hhigh _ (by omega) (by omega), hhigh _ (by omega) (by omega),
            hhigh _ (by omega) (by omega), hhigh _ (by omega) (by omega)⟩
  · rintro rfl
    decide

/-- Only the NUL character is written with a zero byte. -/
theorem zero_mem_encode_iff {text : String} : 0 ∈ encode text ↔ '\x00' ∈ text.toList := by
  simp [encode_eq_flatMap, zero_mem_utf8EncodeChar_iff]

end ElfAnatomy.Utf8
