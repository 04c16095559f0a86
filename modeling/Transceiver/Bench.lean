import Transceiver.Chip

/-!
# The bench

A simulated chip on a bench: reads of some addresses can be answered from a script instead of by the
chip, and single accesses of a conversation can be refused.
-/

namespace Transceiver

/-- A chip and the scripted answers to its next reads. -/
structure Bench where
  chip : Chip
  script : Transport.Script

/-- Changes to a bench. What is `none` stays as it is. -/
structure Settings where
  /-- A value for all registers. -/
  fill : Option Byte
  /-- Contents of single registers, put there without any effect of a write. -/
  registers : List (Address × Byte)
  /-- Answers to append to the script. -/
  script : Transport.Script
  failRead : Option (Option Address)
  failWrite : Option (Option Address)
  window : Option (Option (Byte × Byte))
  voltages : Option (List Byte)
  busyPolls : Option (Option Nat)
  results : Option (List Byte)

namespace Bench

/-- A chip at power on, nothing scripted. -/
def initial : Bench := ⟨Chip.initial, []⟩

/-- Applies settings to a bench. Filling comes before single registers. -/
def configure (settings : Settings) (bench : Bench) : Bench :=
  let c := bench.chip
  let filled := settings.fill.elim c.registers RegisterFile.filled
  { chip := { c with
      registers := settings.registers.foldl (fun r (a, value) => r.set a value) filled
      failRead := settings.failRead.getD c.failRead
      failWrite := settings.failWrite.getD c.failWrite
      window := settings.window.getD c.window
      voltages := settings.voltages.getD c.voltages
      busyPolls := settings.busyPolls.getD c.busyPolls
      results := settings.results.getD c.results }
    script := bench.script ++ settings.script }

/-- Holds the conversation of a procedure with the chip on the bench. The accesses with the given
numbers, counted from zero, are refused. -/
def perform {α : Type} (refused : List Nat) (p : Procedure α) (bench : Bench) : Outcome Bench α :=
  let outcome := p.run (Chip.transport.scripted.refusing refused.contains)
    (0, bench.script, bench.chip)
  let (_, script, chip) := outcome.state
  { result := outcome.result, state := { chip, script }, events := outcome.events }

end Bench

end Transceiver
