/-!
# Faults

How an operation on the transceiver fails. A fault names its cause; the wording stands in
`Fault.message` alone.
-/

namespace Transceiver

/-- A 64 bit unsigned calculation without a value. -/
inductive ArithmeticFault where
  | multiplyOverflow
  | addOverflow
  | divideByZero
deriving Repr, DecidableEq

/-- The wording of an arithmetic fault. -/
def ArithmeticFault.message : ArithmeticFault → String
  | .multiplyOverflow => "attempt to multiply with overflow"
  | .addOverflow => "attempt to add with overflow"
  | .divideByZero => "attempt to divide by zero"

/-- Why an operation failed. -/
inductive Fault where
  /-- The transport refused an access. It is never retried. -/
  | io
  /-- An address, a code or a value out of its range; nothing was accessed. -/
  | invalidArgument
  /-- A search ran out of its budget, or a register holds an undocumented encoding. -/
  | unexpectedState
  /-- A calculation left its 64 bits. -/
  | arithmetic (cause : ArithmeticFault)
deriving Repr, DecidableEq

/-- The wording of a fault. -/
def Fault.message : Fault → String
  | .io => "register I/O failed"
  | .invalidArgument => "invalid argument"
  | .unexpectedState => "unexpected device state"
  | .arithmetic cause => cause.message

end Transceiver
