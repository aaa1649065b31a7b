import ElfAnatomy.Bytes
import ElfAnatomy.Text.Hex

/-!
# Causes of failure

A run that fails names one cause, together with the bytes, offsets or sizes that show it.

* `RecordKind` : the kinds of fixed-size records a file holds in tables.
* `DeviceError` : what can go wrong below the decoder, when bytes are fetched.
* `DecodeError` : every cause, and `DecodeError.message` for its wording.
-/

namespace ElfAnatomy

/-- The kinds of fixed-size records that a file holds in tables. -/
inductive RecordKind
  | sectionHeader
  | programHeader
  | dynamicEntry
deriving DecidableEq, Repr

/-- The name of a kind of record. -/
def RecordKind.label : RecordKind → String
  | sectionHeader => "section header"
  | programHeader => "program header"
  | dynamicEntry => "dynamic entry"

/-- What can go wrong while bytes are fetched. -/
inductive DeviceError
  /-- A read call was refused. -/
  | readRefused
  /-- A seek call was refused. -/
  | seekRefused
  /-- A read call delivered nothing although bytes were still wanted. -/
  | exhausted
  /-- Any other trouble, in the words of whoever reports it. -/
  | other (text : String)
deriving DecidableEq, Repr

/-- The wording of a device error. -/
def DeviceError.message : DeviceError → String
  | readRefused => "injected read failure"
  | seekRefused => "injected seek failure"
  | exhausted => "failed to fill whole buffer"
  | other text => text

/-- Why a file could not be decoded. -/
inductive DecodeError
  /-- The file does not start with the signature; `found` holds up to four bytes of its start. -/
  | notElf (found : Bytes)
  /-- The class byte is not that of a 64-bit file. -/
  | unsupportedClass (byte : UInt8)
  /-- The data byte names no byte order. -/
  | unsupportedEncoding (byte : UInt8)
  /-- A table declares entries of another size than its records have. -/
  | layoutMismatch (record : RecordKind) (expected found : UInt64)
  /-- A region ends past the end of the source, or is not a whole number of entries. -/
  | truncatedTable (offset size : UInt64) (sourceLength : Nat)
  /-- A string starts at or past the end of its table. -/
  | offsetOutOfRange (offset : UInt64) (tableLength : Nat)
  /-- No NUL byte follows the start of a string in its table. -/
  | unterminatedString (offset : UInt64)
  /-- The bytes of a string are not UTF-8. -/
  | invalidUtf8 (offset : UInt64)
  /-- No section holds the dynamic string table; without an address there is no entry for it. -/
  | unresolvedStringTable (address : Option UInt64)
  /-- A section index lies outside the section table. -/
  | badSectionIndex (index count : Nat)
  /-- The device failed. -/
  | device (cause : DeviceError)
  /-- A field was asked for outside the bytes of its record. -/
  | fieldOutside
deriving DecidableEq, Repr

namespace DecodeError

/-- The bytes of a wrong signature, each as two digits. -/
def signatureText (found : Bytes) : String :=
  if found = [] then " <empty>"
  else String.join (found.map fun byte => " " ++ Hex.wide 2 byte.toNat)

/-- The wording of a cause. -/
def message : DecodeError → String
  | notElf found => "not an ELF file (magic bytes:" ++ signatureText found ++ ")"
  | unsupportedClass byte =>
    "unsupported ELF class " ++ byte.toNat.repr ++ " (expected 2, ELFCLASS64)"
  | unsupportedEncoding byte =>
    "unsupported data encoding " ++ byte.toNat.repr ++ " (expected 1 or 2)"
  | layoutMismatch record expected found =>
    record.label ++ " entry size is " ++ found.toNat.repr ++ " bytes, expected "
      ++ expected.toNat.repr
  | truncatedTable offset size sourceLength =>
    "table at offset " ++ Hex.number offset.toNat ++ " of " ++ size.toNat.repr
      ++ " bytes does not fit in " ++ sourceLength.repr ++ " bytes"
  | offsetOutOfRange offset tableLength =>
    "string offset " ++ Hex.number offset.toNat ++ " outside table of " ++ tableLength.repr
      ++ " bytes"
  | unterminatedString offset =>
    "string at offset " ++ Hex.number offset.toNat ++ " is not NUL-terminated"
  | invalidUtf8 offset => "string at offset " ++ Hex.number offset.toNat ++ " is not valid UTF-8"
  | unresolvedStringTable (some address) =>
    "no section at dynamic string table address " ++ Hex.number address.toNat
  | unresolvedStringTable none => "dynamic table references strings but has no DT_STRTAB"
  | badSectionIndex index count =>
    "section index " ++ index.repr ++ " out of range (" ++ count.repr ++ " sections)"
  | device cause => "I/O failure: " ++ cause.message
  | fieldOutside => "field outside its record"

/-- The device error behind a cause, if there is one. -/
def deviceError? : DecodeError → Option DeviceError
  | device cause => some cause
  | _ => none

end DecodeError

/-- Goes on if `p` holds, and fails with `cause` otherwise. -/
def require (p : Prop) [Decidable p] (cause : DecodeError) : Except DecodeError Unit :=
  if p then .ok () else .error cause

/-- The value of a step that needs enough bytes; `none` means that it had too few. -/
def inside {α : Type} : Option α → Except DecodeError α
  | some a => .ok a
  | none => .error .fieldOutside

@[simp] theorem require_eq_ok_iff {p : Prop} [Decidable p] {cause : DecodeError} {u : Unit} :
    require p cause = .ok u ↔ p := by
  by_cases h : p <;> simp [require, h]

@[simp] theorem require_eq_error_iff {p : Prop} [Decidable p] {cause e : DecodeError} :
    require p cause = .error e ↔ ¬ p ∧ cause = e := by
  by_cases h : p <;> simp [require, h]

end ElfAnatomy
