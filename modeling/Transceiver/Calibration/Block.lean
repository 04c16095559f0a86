import Transceiver.Word
import Transceiver.Fault

/-!
# Calibration blocks

Four blocks of the chip find and hold DC offset corrections. Each has four registers at its base
address and a few submodules, which share those registers and are addressed one at a time.
-/

namespace Transceiver.Calibration

/-- A DC calibration block. -/
inductive Block where
  /-- Tuning of the low-pass filters' DC level. -/
  | lpfTuning
  | txLpf
  | rxLpf
  | rxvga2
deriving Repr, DecidableEq

namespace Block

/-- Every block, in raw code order. -/
def all : List Block := [.lpfTuning, .txLpf, .rxLpf, .rxvga2]

/-- The block's name in log lines. -/
def name : Block → String
  | .lpfTuning => "LpfTuning"
  | .txLpf => "TxLpf"
  | .rxLpf => "RxLpf"
  | .rxvga2 => "Rxvga2"

/-- The block with a raw code. -/
def ofCode (code : Nat) : Except Fault Block :=
  match all[code]? with
  | some block => .ok block
  | none => .error .invalidArgument

/-- The first of the block's four registers. -/
def base : Block → Address
  | .lpfTuning => 0x00
  | .txLpf => 0x30
  | .rxLpf => 0x50
  | .rxvga2 => 0x60

/-- How many submodules the block has. They are calibrated in increasing order. -/
def submodules : Block → Nat
  | .lpfTuning => 1
  | .txLpf => 2
  | .rxLpf => 2
  | .rxvga2 => 5

/-- Whether the block is calibrated through the receive front end, which is then terminated and
driven at full gain. -/
def usesFrontEnd : Block → Bool
  | .rxLpf | .rxvga2 => true
  | .lpfTuning | .txLpf => false

end Block

end Transceiver.Calibration
