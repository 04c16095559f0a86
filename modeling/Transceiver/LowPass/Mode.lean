import Transceiver.Register.Map

/-!
# Filter modes

The mode of a low-pass filter is spread over the enable bit of one register and the bypass bit of
the next. Enabled and bypassed at once is not a mode.
-/

namespace Transceiver.LowPass

/-- How a low-pass filter is operated. -/
inductive Mode where
  /-- Enabled, not bypassed. -/
  | normal
  /-- Powered down and bypassed. -/
  | bypassed
  /-- Powered down, not bypassed. -/
  | disabled
deriving Repr, DecidableEq

namespace Mode

/-- The mode with a raw code. -/
def ofCode : Nat → Except Fault Mode
  | 0 => .ok .normal
  | 1 => .ok .bypassed
  | 2 => .ok .disabled
  | _ => .error .invalidArgument

/-- Whether the filter is enabled. -/
def enabled : Mode → Bool
  | .normal => true
  | .bypassed | .disabled => false

/-- Whether the filter is bypassed. -/
def isBypassed : Mode → Bool
  | .bypassed => true
  | .normal | .disabled => false

/-- The mode of a filter with these two bits. -/
def ofBits? (enable bypass : Bool) : Option Mode :=
  match enable, bypass with
  | true, false => some .normal
  | false, true => some .bypassed
  | false, false => some .disabled
  | true, true => none

/-- The bits of a mode decode to it. -/
@[simp] theorem ofBits?_bits (m : Mode) : ofBits? m.enabled m.isBypassed = some m := by
  cases m <;> rfl

/-- The mode shown by the two registers of a filter. -/
def decode? (h : Half) (control bypass : Byte) : Option Mode :=
  ofBits? ((Register.Lpf.enable h).isSet control) ((Register.Lpf.bypass h).isSet bypass)

end Mode

end Transceiver.LowPass
