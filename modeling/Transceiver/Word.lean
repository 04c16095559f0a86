/-!
# Words on the bus

A register of the chip is a byte, named by a seven bit address. Both are bit vectors, so that an
address is in range and a field is as wide as its type says. Log lines show a word in
hexadecimal without padding.
-/

namespace Transceiver

/-- The contents of one register. -/
abbrev Byte := BitVec 8

/-- The address of one register. -/
abbrev Address := BitVec 7

/-- The address with the given number, if there is one. -/
def Address.ofNat? (n : Nat) : Option Address :=
  if n < 128 then some (BitVec.ofNat 7 n) else none

/-- The number of a register is the number of that register. -/
theorem Address.ofNat?_toNat (a : Address) : Address.ofNat? a.toNat = some a := by
  simp [Address.ofNat?, a.isLt]

/-- Hexadecimal with the mark `0x`, lower case, no leading zeros. -/
def hexText (n : Nat) : String :=
  "0x" ++ String.ofList (Nat.toDigits 16 n)

end Transceiver
