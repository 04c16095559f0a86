import Transceiver.Procedure

/-!
# Selecting amplifiers

Selecting the power amplifier of the transmit half and the LNA of the receive half, and reading the
selection back. One write selects an amplifier and powers the others down.
-/

namespace Transceiver.Amplifier

open Procedure Register

/-- Selects one power amplifier, or none, and powers the others down. -/
def selectPowerAmp (pa : PowerAmp) : Procedure Unit :=
  modify paControl pa.select

/-- The selected power amplifier. -/
def powerAmp : Procedure PowerAmp := do
  let control ← readByte paControl
  match PowerAmp.decode? control with
  | some pa => return pa
  | none =>
    log (.invalidPowerAmp (Tx.paEnable.get control) (Tx.auxPaOff.isSet control))
    fail .unexpectedState

/-- Selects the active LNA. -/
def selectLna (lna : Lna) : Procedure Unit :=
  assign Rx.lna lna.bits

/-- The active LNA. -/
def lna : Procedure Lna :=
  Lna.ofBits <$> load Rx.lna

end Transceiver.Amplifier
