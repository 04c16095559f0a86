import Transceiver.Procedure
import Transceiver.Register.Groups

/-!
# Register dumps

A dump reads every documented register once, group by group, and writes none. It ends at the first
register that cannot be read.
-/

namespace Transceiver

/-- One register of a dump. -/
structure DumpEntry where
  group : String
  address : Address
  value : Byte
deriving Repr, DecidableEq

/-- The contents of the documented registers, in order. -/
abbrev Dump := List DumpEntry

namespace Dump

open Procedure

/-- Reads one register for a dump. -/
def readEntry (group : String) (address : Address) : Procedure DumpEntry := do
  match ← (readByte address).attempt with
  | .ok value =>
    log (.dumped address value)
    return { group, address, value }
  | .error fault =>
    log (.dumpFailed address)
    fail fault

/-- Reads every documented register. The first failure ends the dump. -/
def take : Procedure Dump :=
  Register.documented.mapM fun (group, address) => readEntry group address

/-- The contents of a register, if it is part of the dump. -/
def value? (dump : Dump) (address : Address) : Option Byte :=
  (dump.find? (·.address == address)).map (·.value)

end Dump

end Transceiver
