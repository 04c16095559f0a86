import Transceiver.Word
import Transceiver.Fault

/-!
# The two halves

The transceiver has a receive half and a transmit half. Each has a PLL and a low-pass filter of
its own, laid out alike in a register block that starts at the half's base address.
-/

namespace Transceiver

/-- One half of the transceiver. -/
inductive Half where
  | rx
  | tx
deriving Repr, DecidableEq

namespace Half

/-- Both halves, in raw code order. -/
def all : List Half := [.rx, .tx]

/-- The half's name in log lines. -/
def name : Half → String
  | .rx => "Rx"
  | .tx => "Tx"

/-- The half with a raw code. -/
def ofCode : Nat → Except Fault Half
  | 0 => .ok .rx
  | 1 => .ok .tx
  | _ => .error .invalidArgument

/-- The first register of the half's PLL. -/
def pllBase : Half → Address
  | .tx => 0x10
  | .rx => 0x20

/-- The first register of the half's low-pass filter. -/
def lpfBase : Half → Address
  | .tx => 0x30
  | .rx => 0x50

end Half

end Transceiver
