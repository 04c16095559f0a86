import Transceiver.Proofs.Composition
import Transceiver.Proofs.Upholding

/-!
# Chronicles

What the registers hold can be explained by the history that has led to them, and some explanations
go back to an access that was refused long ago. Such a statement is about a history and registers at
once. `Procedure.Records` is a triple for it: where a procedure is entered with a history and
registers of which the first statement holds, it ends with a result, a longer history and registers
of which the second one holds, whatever is refused on the way.

A chip that a history has led to since power on then has the statements that power on has and that
every command continues.
-/

namespace Transceiver

namespace Procedure

open Chip

variable {α β : Type} {before : List Event → RegisterFile → Prop}
  {after middle : Except Fault α → List Event → RegisterFile → Prop}

/-- Entered with a history and registers of which `before` holds, the procedure ends with a result,
a history and registers of which `after` holds. -/
def Records (before : List Event → RegisterFile → Prop) (p : Procedure α)
    (after : Except Fault α → List Event → RegisterFile → Prop) : Prop :=
  ∀ (refused : Nat → Bool) (s : Nat × Chip) (past : List Event), before past s.2.registers →
    after (p.run (bus refused) s).result (past ++ (p.run (bus refused) s).events)
      (p.run (bus refused) s).state.2.registers

/-- What holds where a procedure ends: `ok` where it ends well, and `error` where it does not. -/
def endsIn (ok : α → List Event → RegisterFile → Prop) (error : List Event → RegisterFile → Prop) :
    Except Fault α → List Event → RegisterFile → Prop
  | .ok a => ok a
  | .error _ => error

/-! ## Rules -/

theorem records_done {result : Except Fault α}
    (h : ∀ past r, before past r → after result past r) : (done result).Records before after := by
  intro refused s past hbefore
  simpa only [run, List.append_nil] using h past _ hbefore

theorem Records.bind {p : Procedure α} {f : α → Procedure β}
    {last : Except Fault β → List Event → RegisterFile → Prop} (hp : p.Records before middle)
    (hok : ∀ a, (f a).Records (middle (.ok a)) last)
    (herror : ∀ fault past r, middle (.error fault) past r → last (.error fault) past r) :
    (p >>= f).Records before last := by
  intro refused s past hbefore
  have hmiddle := hp refused s past hbefore
  cases hr : (p.run (bus refused) s).result with
  | error fault =>
    rw [run_bind_of_error _ _ hr]
    rw [hr] at hmiddle
    exact herror fault _ _ hmiddle
  | ok a =>
    rw [hr] at hmiddle
    have hlast := hok a refused (p.run (bus refused) s).state _ hmiddle
    rw [run_bind_of_ok _ _ hr]
    simpa only [List.append_assoc] using hlast

theorem Records.attempt {p : Procedure α} (hp : p.Records before after) :
    p.attempt.Records before fun attempted past r =>
      ∃ result, attempted = .ok result ∧ after result past r := by
  intro refused s past hbefore
  rw [run_attempt]
  exact ⟨_, rfl, hp refused s past hbefore⟩

theorem Records.mono {p : Procedure α} {last : Except Fault α → List Event → RegisterFile → Prop}
    (hp : p.Records before middle)
    (h : ∀ result past r, middle result past r → last result past r) : p.Records before last :=
  fun refused s past hbefore => h _ _ _ (hp refused s past hbefore)

/-- A read of a stored register shows what it holds, unless it is refused. -/
theorem records_readByte {address : Address} (hs : (Site.at address).isStored)
    {after : Except Fault Byte → List Event → RegisterFile → Prop}
    (hrefused : ∀ past r, before past r → after (.error .io) (past ++ [.read address none]) r)
    (h : ∀ past r, before past r →
      after (.ok (r.get address)) (past ++ [.read address (some (r.get address))]) r) :
    (readByte address).Records before after := by
  intro refused s past hbefore
  rcases run_readByte_stored refused hs s with hr | hr <;> rw [hr]
  · exact hrefused past _ hbefore
  · exact h past _ hbefore

/-- A write changes its register, unless it is refused. -/
theorem records_writeByte {address : Address} {value : Byte}
    {after : Except Fault Unit → List Event → RegisterFile → Prop}
    (hrefused : ∀ past r, before past r →
      after (.error .io) (past ++ [.write address value false]) r)
    (h : ∀ past r, before past r →
      after (.ok ()) (past ++ [.write address value true]) (r.set address value)) :
    (writeByte address value).Records before after := by
  intro refused s past hbefore
  have hregisters := registers_bus_write refused address value s
  rw [run_writeByte]
  rcases hwrite : (bus refused).write address value s with ⟨_ | _, s'⟩ <;>
    simp only [hwrite, RegisterFile.step] at hregisters ⊢ <;> rw [hregisters]
  · exact hrefused past _ hbefore
  · exact h past _ hbefore

/-! ## What goes on through a procedure -/

/-- If a statement holds of the history and the registers where the procedure is entered, it holds
where the procedure ends. -/
def Continues (P : List Event → RegisterFile → Prop) (p : Procedure α) : Prop :=
  p.Records P fun _ => P

variable {P : List Event → RegisterFile → Prop}

theorem compositional_continues (P : List Event → RegisterFile → Prop)
    (hnote : ∀ past r entry, P past r → P (past ++ [.note entry]) r) :
    Compositional fun p => p.Continues P where
  done _ := records_done fun _ _ h => h
  log entry _ := fun _ _ past h => hnote past _ entry h
  bind hp hf := Records.bind hp hf fun _ _ _ h => h
  attempt hp := Records.mono (Records.attempt hp) fun _ _ _ ⟨_, _, h⟩ => h

/-- Writes that a statement stands, and whatever else there is, do not end it. -/
theorem continues_of_writesOnly {W : Address → Byte → Prop} {p : Procedure α} (h : p.WritesOnly W)
    (hP : ∀ past r new, P past r → (∀ address value, .write address value true ∈ new →
      W address value) → P (past ++ new) (r.after new)) : p.Continues P := by
  intro refused s past hbefore
  show P _ (p.run (bus refused) s).state.2.registers
  rw [registers_run]
  exact hP past _ _ hbefore fun address value hmem => h.of_mem _ _ hmem

end Procedure

/-! ## Chips with a history -/

namespace Chip

open Procedure

/-- A chip that commands have led to since power on, none of them raw, with all that has happened in
them. Any accesses may have been refused, and before a command anything but the registers may have
changed. -/
inductive Recalled : List Event → Chip → Prop where
  | powerOn {c : Chip} (registers : c.registers = initialRegisters) : Recalled [] c
  | command {history : List Event} {before c : Chip} {command : Command}
    (recalled : Recalled history before) (registers : c.registers = before.registers)
    (tame : command.isRaw = false) (refused : Nat → Bool) (n : Nat) :
    Recalled (history ++ (command.procedure.run (bus refused) (n, c)).events)
      (command.procedure.run (bus refused) (n, c)).state.2

variable {history : List Event} {c : Chip}

theorem Recalled.reached (h : Recalled history c) : ∃ commands, c.Reached commands := by
  induction h with
  | powerOn registers => exact ⟨[], .powerOn registers⟩
  | command recalled registers tame refused n ih =>
    obtain ⟨commands, hreached⟩ := ih
    exact ⟨_, .command hreached registers tame refused n⟩

/-- The registers are those of power on with the accepted writes of the history gone through. -/
theorem Recalled.registers (h : Recalled history c) :
    c.registers = initialRegisters.after history := by
  induction h with
  | powerOn registers => exact registers
  | command recalled registers tame refused n ih =>
    -- a command goes on from the registers that the history before it has left
    rw [registers_run, RegisterFile.after_append, registers, ih]

/-- What power on has and every command continues holds of every history and its chip. -/
theorem Recalled.invariant {P : List Event → RegisterFile → Prop} (hinitial : P [] initialRegisters)
    (hcontinues : ∀ command : Command, command.isRaw = false → command.procedure.Continues P)
    (h : Recalled history c) : P history c.registers := by
  induction h with
  | powerOn registers => exact registers ▸ hinitial
  | command recalled registers tame refused n ih =>
    exact hcontinues _ tame refused (n, _) _ (registers ▸ ih)

end Chip

end Transceiver
