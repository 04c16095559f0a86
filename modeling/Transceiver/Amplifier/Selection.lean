import Transceiver.Register.Map

/-!
# Amplifier selections

The transmit half drives one of two power amplifiers or an auxiliary one; the receive half listens
through one of three LNAs at one of three gains. At most one power amplifier is on: every other
combination of the register's bits is undocumented.
-/

namespace Transceiver.Amplifier

/-- The powered power amplifier. -/
inductive PowerAmp where
  | none
  | aux
  | pa1
  | pa2
deriving Repr, DecidableEq

namespace PowerAmp

/-- The power amplifier with a raw code. -/
def ofCode : Nat → Except Fault PowerAmp
  | 0 => .ok .none
  | 1 => .ok .aux
  | 2 => .ok .pa1
  | 3 => .ok .pa2
  | _ => .error .invalidArgument

/-- The enable field of the main amplifiers. -/
def enableBits : PowerAmp → BitVec 3
  | .none | .aux => 0
  | .pa1 => 2
  | .pa2 => 4

/-- Whether the auxiliary amplifier is powered down. -/
def auxOff : PowerAmp → Bool
  | .aux => false
  | .none | .pa1 | .pa2 => true

/-- The control byte with one power amplifier selected and the others powered down. -/
def select (pa : PowerAmp) (control : Byte) : Byte :=
  Register.Tx.auxPaOff.put (Register.Tx.paEnable.set control pa.enableBits) pa.auxOff

/-- The power amplifier selected by the control byte. -/
def decode? (control : Byte) : Option PowerAmp :=
  match (Register.Tx.paEnable.get control).toNat, Register.Tx.auxPaOff.isSet control with
  | 0, true => some .none
  | 0, false => some .aux
  | 2, true => some .pa1
  | 4, true => some .pa2
  | _, _ => Option.none

end PowerAmp

/-- The active LNA. -/
inductive Lna where
  | none
  | lna1
  | lna2
  | lna3
deriving Repr, DecidableEq

namespace Lna

/-- The LNA selected by a register field. -/
def ofBits (bits : BitVec 2) : Lna :=
  match bits with
  | 0 => .none
  | 1 => .lna1
  | 2 => .lna2
  | _ => .lna3

/-- The register field that selects an LNA. -/
def bits : Lna → BitVec 2
  | .none => 0
  | .lna1 => 1
  | .lna2 => 2
  | .lna3 => 3

@[simp] theorem ofBits_bits (l : Lna) : ofBits l.bits = l := by
  cases l <;> rfl

/-- The LNA with a raw code. -/
def ofCode (code : Nat) : Except Fault Lna :=
  if code < 4 then .ok (ofBits (BitVec.ofNat 2 code)) else .error .unexpectedState

end Lna

/-- The gain mode of the LNA. -/
inductive LnaGain where
  /-- Not a setting. -/
  | unknown
  | bypass
  | mid
  | max
deriving Repr, DecidableEq

namespace LnaGain

/-- The gain mode of a register field. -/
def ofBits (bits : BitVec 2) : LnaGain :=
  match bits with
  | 0 => .unknown
  | 1 => .bypass
  | 2 => .mid
  | _ => .max

/-- The register field of a gain mode. -/
def bits : LnaGain → BitVec 2
  | .unknown => 0
  | .bypass => 1
  | .mid => 2
  | .max => 3

@[simp] theorem ofBits_bits (g : LnaGain) : ofBits g.bits = g := by
  cases g <;> rfl

/-- The gain mode with a raw code. -/
def ofCode (code : Nat) : Except Fault LnaGain :=
  if code < 4 then .ok (ofBits (BitVec.ofNat 2 code)) else .error .unexpectedState

end LnaGain

end Transceiver.Amplifier
