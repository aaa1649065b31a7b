import ElfAnatomy.ByteOrder
import ElfAnatomy.DecodeError

/-!
# Identification of a file

The first bytes of a file say what it is: four bytes of signature, then a byte for the class
(32-bit or 64-bit) and a byte for the byte order of everything that follows.

* `checkSignature` : refuses bytes that do not start with the signature.
* `FileClass.ofStart` : the class of a file, from its first five bytes.
* `ByteOrder.ofByte` : the byte order that a data byte names.
-/

namespace ElfAnatomy

/-- The four bytes every ELF file starts with. -/
def signature : Bytes := [0x7f, 0x45, 0x4c, 0x46]

/-- Refuses bytes that do not start with the signature. -/
def checkSignature (bs : Bytes) : Except DecodeError Unit :=
  require (bs.take 4 = signature) (.notElf (bs.take 4))

/-- The word size of a file. -/
inductive FileClass
  | elf32
  | elf64
deriving DecidableEq, Repr

namespace FileClass

/-- The class byte of a class. -/
def byte : FileClass → UInt8
  | elf32 => 1
  | elf64 => 2

/-- The word size in bits. -/
def bits : FileClass → Nat
  | elf32 => 32
  | elf64 => 64

/-- The class that a class byte names. -/
def ofByte (byte : UInt8) : Except DecodeError FileClass :=
  if byte = 1 then .ok elf32
  else if byte = 2 then .ok elf64
  else .error (.unsupportedClass byte)

/-- The class of a file that starts with `bs`, which must hold the signature and a class byte. -/
def ofStart (bs : Bytes) : Except DecodeError FileClass := do
  checkSignature bs
  match bs[4]? with
  | none => .error (.truncatedTable 4 1 bs.length)
  | some byte => ofByte byte

/-- Refuses every class but the 64-bit one. -/
def require64 (c : FileClass) : Except DecodeError Unit :=
  require (c = elf64) (.unsupportedClass c.byte)

end FileClass

namespace ByteOrder

/-- The byte order that a data byte names. -/
def ofByte (byte : UInt8) : Except DecodeError ByteOrder :=
  if byte = 1 then .ok little
  else if byte = 2 then .ok big
  else .error (.unsupportedEncoding byte)

/-- The data byte that names a byte order. -/
def byte : ByteOrder → UInt8
  | little => 1
  | big => 2

theorem ofByte_eq_ok_iff {b : UInt8} {order : ByteOrder} :
    ofByte b = .ok order ↔ b = order.byte := by
  unfold ofByte
  by_cases h1 : b = 1
  · subst h1
    cases order <;> simp [byte]
  · by_cases h2 : b = 2
    · subst h2
      cases order <;> simp [byte]
    · cases order <;> simp [byte, h1, h2]

theorem ofByte_eq_error_iff {b : UInt8} {e : DecodeError} :
    ofByte b = .error e ↔
      (∀ order : ByteOrder, b ≠ order.byte) ∧ e = .unsupportedEncoding b := by
  unfold ofByte
  by_cases h1 : b = 1
  · simp only [h1, if_true, reduceCtorEq, false_iff, not_and]
    exact fun h => absurd rfl (h little)
  · by_cases h2 : b = 2
    · rw [if_neg h1, if_pos h2]
      simp only [reduceCtorEq, false_iff, not_and]
      exact fun h => absurd h2 (h big)
    · simp only [h1, h2, if_false, Except.error.injEq]
      constructor
      · rintro rfl
        refine ⟨fun order => ?_, rfl⟩
        cases order
        · exact h1
        · exact h2
      · rintro ⟨-, rfl⟩
        rfl

end ByteOrder

end ElfAnatomy
