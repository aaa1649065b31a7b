import ElfAnatomy.Text.Utf8

/-!
# The syntax of UTF-8

`Utf8.WellFormed` says which bytes are well-formed by their values alone: a run of sequences of one
to four bytes, where the first byte gives the length, and restricts the second one so that no
character has two encodings and no surrogate has any.

* `Utf8.sequence_iff` : the sequences are the encodings of characters.
* `Utf8.wellFormed_iff` : **well-formed bytes are those that encode a text**.
* `Utf8.not_wellFormed_iff` : exactly the others have no text.
-/

namespace ElfAnatomy.Utf8

/-- A byte after the first one of a sequence. -/
def Tail (b : UInt8) : Prop := 0x80 ≤ b ∧ b ≤ 0xbf

/-- The bytes of one character. -/
inductive Sequence : Bytes → Prop
  | one {a} : a ≤ 0x7f → Sequence [a]
  | two {a b} : 0xc2 ≤ a → a ≤ 0xdf → Tail b → Sequence [a, b]
  | three {a b c} : 0xe0 ≤ a → a ≤ 0xef → Tail b → Tail c → (a = 0xe0 → 0xa0 ≤ b) →
      (a = 0xed → b ≤ 0x9f) → Sequence [a, b, c]
  | four {a b c d} : 0xf0 ≤ a → a ≤ 0xf4 → Tail b → Tail c → Tail d → (a = 0xf0 → 0x90 ≤ b) →
      (a = 0xf4 → b ≤ 0x8f) → Sequence [a, b, c, d]

/-- A run of sequences. -/
inductive WellFormed : Bytes → Prop
  | nil : WellFormed []
  | append {bs rest} : Sequence bs → WellFormed rest → WellFormed (bs ++ rest)

/-- The bytes of the character with the number `v`. -/
theorem utf8EncodeChar_eq {c : Char} {v : Nat} (hv : c.val.toNat = v) :
    String.utf8EncodeChar c =
      if v ≤ 0x7f then [.ofNat v]
      else if v ≤ 0x7ff then [.ofNat (v / 64 % 32 + 0xc0), .ofNat (v % 64 + 0x80)]
      else if v ≤ 0xffff then
        [.ofNat (v / 4096 % 16 + 0xe0), .ofNat (v / 64 % 64 + 0x80), .ofNat (v % 64 + 0x80)]
      else [.ofNat (v / 262144 % 8 + 0xf0), .ofNat (v / 4096 % 64 + 0x80),
        .ofNat (v / 64 % 64 + 0x80), .ofNat (v % 64 + 0x80)] := by
  subst hv
  rfl

theorem sequence_utf8EncodeChar (c : Char) : Sequence (String.utf8EncodeChar c) := by
  obtain ⟨v, hv⟩ : ∃ v, c.val.toNat = v := ⟨_, rfl⟩
  have hvalid : v.isValidChar := hv ▸ c.valid
  simp only [Nat.isValidChar] at hvalid
  rw [utf8EncodeChar_eq hv]
  split
  · refine .one ?_
    simp [UInt8.le_iff_toNat_le]
    omega
  · split
    · refine .two ?_ ?_ ?_ <;> simp [Tail, UInt8.le_iff_toNat_le] <;> omega
    · split
      · refine .three ?_ ?_ ?_ ?_ ?_ ?_ <;>
          simp [Tail, UInt8.le_iff_toNat_le, ← UInt8.toNat_inj] <;> omega
      · refine .four ?_ ?_ ?_ ?_ ?_ ?_ ?_ <;>
          simp [Tail, UInt8.le_iff_toNat_le, ← UInt8.toNat_inj] <;> omega

theorem Sequence.exists_char {bs : Bytes} (h : Sequence bs) :
    ∃ c : Char, String.utf8EncodeChar c = bs := by
  -- the number is put together from the bits that the bytes carry
  have hchar : ∀ v : Nat, v.isValidChar → ∃ c : Char, c.val.toNat = v := fun v hv =>
    ⟨Char.ofNatAux v hv, rfl⟩
  cases h with
  | @one a ha =>
    simp only [UInt8.le_iff_toNat_le, UInt8.reduceToNat] at ha
    obtain ⟨c, hc⟩ := hchar a.toNat (by simp only [Nat.isValidChar]; omega)
    exact ⟨c, by rw [utf8EncodeChar_eq hc, if_pos ha]; simp⟩
  | @two a b ha ha' hb =>
    simp only [Tail, UInt8.le_iff_toNat_le, UInt8.reduceToNat] at ha ha' hb
    obtain ⟨c, hc⟩ := hchar ((a.toNat - 0xc0) * 64 + (b.toNat - 0x80))
      (by simp only [Nat.isValidChar]; omega)
    refine ⟨c, ?_⟩
    rw [utf8EncodeChar_eq hc, if_neg (by omega), if_pos (by omega)]
    simp [← UInt8.toNat_inj]
    omega
  | @three a b c ha ha' hb hc hlow hhigh =>
    simp only [Tail, UInt8.le_iff_toNat_le, ← UInt8.toNat_inj, UInt8.reduceToNat]
      at ha ha' hb hc hlow hhigh
    obtain ⟨u, hu⟩ := hchar
      ((a.toNat - 0xe0) * 4096 + (b.toNat - 0x80) * 64 + (c.toNat - 0x80))
      (by simp only [Nat.isValidChar]; omega)
    refine ⟨u, ?_⟩
    rw [utf8EncodeChar_eq hu, if_neg (by omega), if_neg (by omega), if_pos (by omega)]
    simp [← UInt8.toNat_inj]
    omega
  | @four a b c d ha ha' hb hc hd hlow hhigh =>
    simp only [Tail, UInt8.le_iff_toNat_le, ← UInt8.toNat_inj, UInt8.reduceToNat]
      at ha ha' hb hc hd hlow hhigh
    obtain ⟨u, hu⟩ := hchar
      ((a.toNat - 0xf0) * 262144 + (b.toNat - 0x80) * 4096 + (c.toNat - 0x80) * 64 +
        (d.toNat - 0x80))
      (by simp only [Nat.isValidChar]; omega)
    refine ⟨u, ?_⟩
    rw [utf8EncodeChar_eq hu, if_neg (by omega), if_neg (by omega), if_neg (by omega)]
    simp [← UInt8.toNat_inj]
    omega

/-- The sequences are the encodings of characters. -/
theorem sequence_iff {bs : Bytes} : Sequence bs ↔ ∃ c : Char, String.utf8EncodeChar c = bs := by
  constructor
  · exact Sequence.exists_char
  · rintro ⟨c, rfl⟩
    exact sequence_utf8EncodeChar c

/-- **Well-formed bytes are those that encode a text.** -/
theorem wellFormed_iff {bs : Bytes} : WellFormed bs ↔ ∃ text, encode text = bs := by
  constructor
  · intro h
    induction h with
    | nil => exact ⟨"", rfl⟩
    | @append bs rest hbs _ ih =>
      obtain ⟨c, rfl⟩ := sequence_iff.1 hbs
      obtain ⟨text, rfl⟩ := ih
      exact ⟨.ofList (c :: text.toList), by simp [encode_eq_flatMap]⟩
  · rintro ⟨text, rfl⟩
    rw [encode_eq_flatMap]
    -- on the characters of the text
    induction text.toList with
    | nil => exact .nil
    | cons c chars ih => exact .append (sequence_iff.2 ⟨c, rfl⟩) ih

theorem not_wellFormed_iff {bs : Bytes} : ¬ WellFormed bs ↔ decode? bs = none := by
  rw [wellFormed_iff, not_exists, decode?_eq_none_iff]

end ElfAnatomy.Utf8
