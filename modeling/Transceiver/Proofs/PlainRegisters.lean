import Transceiver.Proofs.CalibrationEngines

/-!
# Plain registers

Behind most registers there is nothing but memory. While none of the accesses to such a register is
refused, a procedure that makes no others has one run, and the whole chip after it is known: it
differs in that register alone.
-/

namespace Transceiver

open Procedure

variable {address : Address} {c : Chip}

/-- What is stored last stays. -/
theorem RegisterFile.set_set (r : RegisterFile) (address : Address) (first second : Byte) :
    (r.set address first).set address second = r.set address second := by
  apply ext_get
  intro other
  simp only [get_set]
  split <;> rfl

namespace Chip

/-- No access to a register is refused. -/
structure Serves (c : Chip) (address : Address) : Prop where
  reads : c.failRead ≠ some address
  writes : c.failWrite ≠ some address

theorem Serves.store (hc : c.Serves address) (other : Address) (value : Byte) :
    (c.store other value).Serves address :=
  ⟨hc.reads, hc.writes⟩

theorem store_store (c : Chip) (address : Address) (first second : Byte) :
    (c.store address first).store address second = c.store address second := by
  simp only [Chip.store, RegisterFile.set_set]

theorem Serves.read (hc : c.Serves address) (hsite : Site.at address = .memory) :
    c.read address = (some (c.registers.get address), c) := by
  rw [Chip.read, if_neg hc.reads, hsite]

theorem Serves.write (hc : c.Serves address) (hsite : Site.at address = .memory) (value : Byte) :
    c.write address value = (true, c.store address value) := by
  rw [Chip.write, if_neg hc.writes, hsite]
  rfl

end Chip

namespace Procedure

open Chip

theorem run_readByte_plain (hc : c.Serves address) (hsite : Site.at address = .memory) :
    (readByte address).run transport c =
      ⟨.ok (c.registers.get address), c, [.read address (some (c.registers.get address))]⟩ := by
  rw [run_readByte, show transport.read address c = _ from hc.read hsite]

theorem run_writeByte_plain (hc : c.Serves address) (hsite : Site.at address = .memory)
    (value : Byte) :
    (writeByte address value).run transport c =
      ⟨.ok (), c.store address value, [.write address value true]⟩ := by
  rw [run_writeByte, show transport.write address value c = _ from hc.write hsite value]

/-- A register that is read and written back changed. -/
theorem run_modify_plain (hc : c.Serves address) (hsite : Site.at address = .memory)
    (change : Byte → Byte) :
    (modify address change).run transport c =
      ⟨.ok (), c.store address (change (c.registers.get address)),
        [.read address (some (c.registers.get address)),
          .write address (change (c.registers.get address)) true]⟩ := by
  rw [modify, run_bind, run_readByte_plain hc hsite]
  simp only [run_writeByte_plain hc hsite, List.singleton_append]

end Procedure

end Transceiver
