import Transceiver.Amplifier.Selection

/-!
# Gain stages

Four stages have a gain in whole dB inside a range of their own; the LNA has a gain mode. A request
out of range is brought to the nearer end. Each dB stage turns a gain into the contents of its
register (`encode`) and the contents into a gain (`decode`), and every register byte decodes to a
gain in range, also one that the library never writes.
-/

namespace Transceiver

/-- A gain stage with a gain in dB. -/
inductive DbStage where
  | rxvga1
  | rxvga2
  | txvga1
  | txvga2
deriving Repr, DecidableEq

namespace DbStage

/-- The stage's name in log lines. -/
def name : DbStage → String
  | .rxvga1 => "RXVGA1"
  | .rxvga2 => "RXVGA2"
  | .txvga1 => "TXVGA1"
  | .txvga2 => "TXVGA2"

/-- The least gain in dB. -/
def low : DbStage → Int
  | .rxvga1 => 5
  | .rxvga2 => 0
  | .txvga1 => -35
  | .txvga2 => 0

/-- The greatest gain in dB. -/
def high : DbStage → Int
  | .rxvga1 => 30
  | .rxvga2 => 30
  | .txvga1 => -4
  | .txvga2 => 25

/-- The gain in range that is nearest to a request. -/
def clamp (stage : DbStage) (request : Int) : Int :=
  min (max request stage.low) stage.high

/-- The step of the RXVGA2 gain in dB. -/
def rxvga2Step : Int := 3

/-- The greatest code of RXVGA2 with a gain of its own. -/
def rxvga2MaxCode : Nat := 10

/-- The code of TXVGA1 for 0 dB. -/
def txvga1Offset : Int := 35

/-- The greatest code of TXVGA2 with a gain of its own. -/
def txvga2MaxCode : Nat := 25

/-- The gain that a request is programmed as: in range, and for RXVGA2 rounded down to its step. -/
def effective (stage : DbStage) (request : Int) : Int :=
  match stage with
  | .rxvga2 => stage.clamp request / rxvga2Step * rxvga2Step
  | .rxvga1 | .txvga1 | .txvga2 => stage.clamp request

/-- The register that holds the stage's gain. -/
def address : DbStage → Address
  | .rxvga1 => Register.rxvga1Gain
  | .rxvga2 => Register.rxvga2Gain
  | .txvga1 => Register.txvga1Gain
  | .txvga2 => Register.txvga2Gain

end DbStage

/-! ## RXVGA1

The gain is `5 + 20 log10 (127 / (127 - code))` dB, which the two tables give in whole dB. -/

namespace Rxvga1

/-- The greatest code with a gain of its own. -/
def maxCode : Nat := 120

/-- The gain in dB by code. -/
def dbOfCode : List Nat := [
  5, 5, 5, 5, 5, 5, 5, 5, 6, 6, 6, 6, 6, 6, 6, 6, 6, 6, 6, 6, 6, 7, 7, 7, 7, 7, 7, 7, 7, 7, 7, 7,
  8, 8, 8, 8, 8, 8, 8, 8, 8, 8, 8, 9, 9, 9, 9, 9, 9, 9, 9, 9, 10, 10, 10, 10, 10, 10, 10, 10,
  11, 11, 11, 11, 11, 11, 11, 12, 12, 12, 12, 12, 12, 12, 13, 13, 13, 13, 13, 13,
  14, 14, 14, 14, 14, 15, 15, 15, 15, 15, 16, 16, 16, 16, 17, 17, 17, 18, 18, 18, 18, 19, 19, 19,
  20, 20, 21, 21, 22, 22, 22, 23, 24, 24, 25, 25, 26, 27, 28, 29, 30]

/-- The code nearest to a gain, by gain in dB. Below 5 dB it is that of 5 dB. -/
def codeOfDb : List Nat := [
  2, 2, 2, 2, 2, 2, 14, 26, 37, 47, 56, 63, 70, 76, 82, 87, 91, 95, 99, 102, 104, 107, 109, 111,
  113, 114, 116, 117, 118, 119, 120]

end Rxvga1

namespace DbStage

/-- The register contents for a gain in range, given the contents before. Only TXVGA2 shares its
register with other fields. -/
def encode (stage : DbStage) (gain : Int) (old : Byte) : Byte :=
  match stage with
  | .rxvga1 => Register.Rx.vga1.set 0 (BitVec.ofNat 7 (Rxvga1.codeOfDb.getD gain.toNat 0))
  | .rxvga2 => Register.Rx.vga2.set 0 (BitVec.ofNat 5 (gain / rxvga2Step).toNat)
  | .txvga1 => BitVec.ofNat 8 (gain + txvga1Offset).toNat
  | .txvga2 => Register.Tx.vga2.set old (BitVec.ofNat 5 gain.toNat)

/-- The gain that register contents stand for. Codes past the last gain stand for it. -/
def decode (stage : DbStage) (contents : Byte) : Int :=
  match stage with
  | .rxvga1 => Rxvga1.dbOfCode.getD (min (Register.Rx.vga1.get contents).toNat Rxvga1.maxCode) 0
  | .rxvga2 => min (Register.Rx.vga2.get contents).toNat rxvga2MaxCode * rxvga2Step
  | .txvga1 => (Register.Tx.vga1.get contents).toNat - txvga1Offset
  | .txvga2 => min (Register.Tx.vga2.get contents).toNat txvga2MaxCode

end DbStage

/-- A gain stage. -/
inductive GainStage where
  | lna
  | db (stage : DbStage)
deriving Repr, DecidableEq

namespace GainStage

/-- The range of a stage in dB. The LNA has none. -/
def range : GainStage → Option (Int × Int)
  | .lna => none
  | .db stage => some (stage.low, stage.high)

end GainStage

/-- The gain of one stage. -/
inductive Gain where
  | lna (gain : Amplifier.LnaGain)
  | db (stage : DbStage) (gain : Int)
deriving Repr, DecidableEq

/-- The stage that a gain belongs to. -/
def Gain.stage : Gain → GainStage
  | .lna _ => .lna
  | .db stage _ => .db stage

end Transceiver
