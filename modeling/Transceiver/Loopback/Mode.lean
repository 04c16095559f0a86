import Transceiver.Amplifier.Selection

/-!
# Loopback modes

A loopback feeds the transmit half back into the receive half: at baseband, from one of two taps to
one of two inputs, or at radio frequency, from the transmit mixer to the path of one LNA. The path
switches of a loopback lie in two registers. `Mode.close` sets them for a mode and
`Mode.decode` reads the mode off them.
-/

namespace Transceiver.Loopback

/-- Where a baseband loopback starts. -/
inductive Source where
  /-- The output of the transmit filter. -/
  | txLpf
  /-- The output of TXVGA1. -/
  | txVga1
deriving Repr, DecidableEq

/-- Where a baseband loopback ends. -/
inductive Dest where
  /-- The input of RXVGA2; the receive filter is disabled. -/
  | rxVga2
  /-- The input of the receive filter; RXVGA1 is disabled. -/
  | rxLpf
deriving Repr, DecidableEq

/-- The LNA path that a radio frequency loopback feeds. -/
inductive RfPath where
  | lna1
  | lna2
  | lna3
deriving Repr, DecidableEq

/-- A loopback mode. -/
inductive Mode where
  /-- Normal operation. -/
  | none
  | baseband (source : Source) (dest : Dest)
  | rf (path : RfPath)
deriving Repr, DecidableEq

/-- The tap of the transmit half that the baseband loop switch connects. -/
inductive Tap where
  | none
  | txLpf
  | txVga1
  /-- The output of the envelope and peak detector. -/
  | envelope
deriving Repr, DecidableEq

namespace Tap

/-- The tap connected by a register field. -/
def ofBits (bits : BitVec 2) : Tap :=
  match bits with
  | 0 => .none
  | 1 => .txLpf
  | 2 => .txVga1
  | _ => .envelope

/-- The register field that connects a tap. -/
def bits : Tap → BitVec 2
  | .none => 0
  | .txLpf => 1
  | .txVga1 => 2
  | .envelope => 3

/-- The bits of a tap stand for it. -/
@[simp] theorem ofBits_bits (t : Tap) : ofBits t.bits = t := by
  cases t <;> rfl

/-- The tap with a raw code. -/
def ofCode (code : Nat) : Except Fault Tap :=
  if code < 4 then .ok (ofBits (BitVec.ofNat 2 code)) else .error .unexpectedState

/-- The source of a baseband loopback from this tap. -/
def source? : Tap → Option Source
  | .txLpf | .envelope => some .txLpf
  | .txVga1 => some .txVga1
  | .none => Option.none

end Tap

/-- The tap that a source is taken from. -/
def Source.tap : Source → Tap
  | .txLpf => .txLpf
  | .txVga1 => .txVga1

namespace Source

/-- The source's name in log lines. -/
def name : Source → String
  | .txLpf => "TxLpf"
  | .txVga1 => "TxVga1"

end Source

namespace Dest

/-- The destination's name in log lines. -/
def name : Dest → String
  | .rxVga2 => "RxVga2"
  | .rxLpf => "RxLpf"

end Dest

namespace RfPath

/-- The path's name in log lines. -/
def name : RfPath → String
  | .lna1 => "Lna1"
  | .lna2 => "Lna2"
  | .lna3 => "Lna3"

/-- The LNA at the end of the path. -/
def lna : RfPath → Amplifier.Lna
  | .lna1 => .lna1
  | .lna2 => .lna2
  | .lna3 => .lna3

/-- The number of the path, from 1 to 3. The path switch and the PLL output buffer that feeds the
LNA are both set to it. -/
def code : RfPath → BitVec 2
  | .lna1 => 1
  | .lna2 => 2
  | .lna3 => 3

/-- The path with a number. -/
def ofCode? (code : Nat) : Option RfPath :=
  match code with
  | 1 => some .lna1
  | 2 => some .lna2
  | 3 => some .lna3
  | _ => Option.none

end RfPath

namespace Mode

/-- The mode's name in log lines. -/
def name : Mode → String
  | .none => "None"
  | .baseband source dest =>
    "Baseband \x7b source: " ++ source.name ++ ", dest: " ++ dest.name ++ " \x7d"
  | .rf path => "Rf(" ++ path.name ++ ")"

/-- Every mode, in raw code order. -/
def all : List Mode := [
  .none,
  .baseband .txLpf .rxVga2,
  .baseband .txLpf .rxLpf,
  .baseband .txVga1 .rxVga2,
  .baseband .txVga1 .rxLpf,
  .rf .lna1,
  .rf .lna2,
  .rf .lna3]

/-- The mode with a raw code. -/
def ofCode (code : Nat) : Except Fault Mode :=
  match all[code]? with
  | some mode => .ok mode
  | Option.none => .error .invalidArgument

/-- The raw code of a mode. -/
def code (mode : Mode) : Nat :=
  all.idxOf mode

/-- Every mode has the raw code that names it. -/
@[simp] theorem ofCode_code (mode : Mode) : ofCode mode.code = .ok mode := by
  rcases mode with _ | ⟨_ | _, _ | _⟩ | ⟨_ | _ | _⟩ <;> rfl

/-- The tap that a mode connects. -/
def tap : Mode → Tap
  | .baseband source _ => source.tap
  | .none | .rf _ => .none

/-- The radio frequency path switch of a mode. -/
def rfBits : Mode → BitVec 4
  | .rf path => path.code.setWidth 4
  | .none | .baseband _ _ => 0

/-- Whether a mode ends at the input of RXVGA2. -/
def entersRxvga2 : Mode → Bool
  | .baseband _ .rxVga2 => true
  | .none | .baseband _ .rxLpf | .rf _ => false

/-- Whether a mode ends at the input of the receive filter. -/
def entersRxLpf : Mode → Bool
  | .baseband _ .rxLpf => true
  | .none | .baseband _ .rxVga2 | .rf _ => false

/-- The baseband source register with its switch set for a mode. -/
def closeSource (mode : Mode) (source : Byte) : Byte :=
  Register.Loop.source.set source mode.tap.bits

/-- The loopback register with its path switches set for a mode: those of the mode closed, the
others open. -/
def closePath (mode : Mode) (control : Byte) : Byte :=
  let control := Register.Loop.rf.set control mode.rfBits
  let control := Register.Loop.toOutputPins.put control false
  let control := Register.Loop.toRxvga2.put control mode.entersRxvga2
  Register.Loop.toRxLpf.put control mode.entersRxLpf

/-- The destination of a baseband loopback, if exactly one of the switches to RXVGA2 and to the
receive filter is closed and that to the output pins is open. -/
def dest? (control : Byte) : Option Dest :=
  match Register.Loop.toOutputPins.isSet control, Register.Loop.toRxvga2.isSet control,
      Register.Loop.toRxLpf.isSet control with
  | false, true, false => some .rxVga2
  | false, false, true => some .rxLpf
  | _, _, _ => Option.none

/-- The mode shown by the loopback register and the baseband source register. A radio frequency
path comes first; its switch is read without its top bit. What is no mode reads as normal
operation. -/
def decode (control source : Byte) : Mode :=
  match RfPath.ofCode? ((Register.Loop.rf.get control).toNat % 8) with
  | some path => .rf path
  | Option.none =>
    match dest? control, (Tap.ofBits (Register.Loop.source.get source)).source? with
    | some dest, some source => .baseband source dest
    | _, _ => .none

/-- Closing the path switches of a mode shows that mode, whatever the registers held. -/
theorem decode_close (mode : Mode) (control source : Byte) :
    decode (mode.closePath control) (mode.closeSource source) = mode := by
  have rf : Register.Loop.rf.get (mode.closePath control) = mode.rfBits := by
    simp only [closePath]
    rw [BitField.get_put_of_disjoint (by decide), BitField.get_put_of_disjoint (by decide),
      BitField.get_put_of_disjoint (by decide), BitField.get_set_self]
  have pins : Register.Loop.toOutputPins.isSet (mode.closePath control) = false := by
    simp only [closePath]
    rw [BitField.isSet_put_of_disjoint (by decide), BitField.isSet_put_of_disjoint (by decide),
      BitField.isSet_put]
  have vga2 : Register.Loop.toRxvga2.isSet (mode.closePath control) = mode.entersRxvga2 := by
    simp only [closePath]
    rw [BitField.isSet_put_of_disjoint (by decide), BitField.isSet_put]
  have lpf : Register.Loop.toRxLpf.isSet (mode.closePath control) = mode.entersRxLpf :=
    BitField.isSet_put _ _ _
  rw [decode, dest?, rf, pins, vga2, lpf, closeSource, BitField.get_set_self]
  rcases mode with _ | ⟨_ | _, _ | _⟩ | ⟨_ | _ | _⟩ <;> rfl

end Mode

end Transceiver.Loopback
