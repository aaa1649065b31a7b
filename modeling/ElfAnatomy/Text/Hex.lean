/-!
# Hexadecimal text

Numbers in base 16 with lower-case digits: `Hex.digits` without padding, `Hex.padded` with at
least a given number of digits, and `Hex.number`, `Hex.wide` with a leading `0x`.
-/

namespace ElfAnatomy.Hex

/-- The digits of `n` in base 16, without leading zeros. -/
def digits (n : Nat) : String := String.ofList (Nat.toDigits 16 n)

/-- The digits of `n` in base 16, with zeros in front up to `width` digits. -/
def padded (width n : Nat) : String := String.ofList ((Nat.toDigits 16 n).leftpad width '0')

/-- The number `n` written with a leading `0x`. -/
def number (n : Nat) : String := "0x" ++ digits n

/-- The number `n` written with a leading `0x` and at least `width` digits. -/
def wide (width n : Nat) : String := "0x" ++ padded width n

end ElfAnatomy.Hex
