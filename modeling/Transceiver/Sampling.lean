import Transceiver.Power

/-!
# The input of the ADC

The ADC samples either the output of RXVGA2 or the external pins. Whatever takes over is switched
on after the other one has been switched off.
-/

namespace Transceiver

/-- What the ADC samples. -/
inductive Sampling where
  /-- The output of RXVGA2. -/
  | internal
  /-- The external pins, with RXVGA2 off. -/
  | external
  /-- Both of them or neither. -/
  | unknown
deriving Repr, DecidableEq

namespace Sampling

open Procedure Register

/-- The input with a raw code. -/
def ofCode : Nat → Except Fault Sampling
  | 0 => .ok .internal
  | 1 => .ok .external
  | _ => .error .invalidArgument

/-- The input shown by the ADC's input bit and the enable of RXVGA2. -/
def ofBits (external rxvga2On : Bool) : Sampling :=
  match external, rxvga2On with
  | false, true => .internal
  | true, false => .external
  | _, _ => .unknown

/-- Connects the ADC to one of its inputs. -/
def select (sampling : Sampling) : Procedure Unit :=
  match sampling with
  | .internal => do
    put Clock.externalAdc false
    Power.enableRxvga2 true
  | .external => do
    Power.enableRxvga2 false
    put Clock.externalAdc true
  | .unknown => fail .invalidArgument

/-- What the ADC is connected to. -/
def selected : Procedure Sampling := do
  let clocks ← readByte clockEnable
  let rxvga2 ← readByte rxvga2Control
  return ofBits (Clock.externalAdc.isSet clocks) (Rx.vga2Enable.isSet rxvga2)

end Sampling

end Transceiver
