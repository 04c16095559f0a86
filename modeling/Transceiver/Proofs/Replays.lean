import Transceiver.Proofs.Composition
import Transceiver.Proofs.Preconditions

/-!
# Replays

A run on the chip moves it by the accesses among its events, so the chip at a moment is the chip at
the start with the events up to that moment replayed. A statement about a run can then be one about
its events alone, and it holds of a whole run if every part of the procedure continues it.
-/

namespace Transceiver

open Procedure Register

/-! ## The chip after some events -/

namespace Chip

/-- The chip after an event: an access is made, and nothing else moves the chip. -/
def step (c : Chip) : Event → Chip
  | .read address _ => (c.read address).2
  | .write address value _ => (c.write address value).2
  | .note _ | .pause _ => c

/-- The chip after some events. -/
def replay (c : Chip) (events : List Event) : Chip :=
  events.foldl step c

variable {c : Chip}

@[simp] theorem replay_nil (c : Chip) : c.replay [] = c :=
  rfl

@[simp] theorem replay_cons (c : Chip) (e : Event) (events : List Event) :
    c.replay (e :: events) = (c.step e).replay events :=
  rfl

@[simp] theorem replay_append (c : Chip) (left right : List Event) :
    c.replay (left ++ right) = (c.replay left).replay right :=
  List.foldl_append

/-- A run leaves the chip as its events do. -/
theorem state_run {α : Type} (p : Procedure α) (c : Chip) :
    (p.run transport c).state = c.replay (p.run transport c).events := by
  induction p generalizing c with
  | done result => rfl
  | read address next ih => exact ih _ _
  | write address value next ih => exact ih _ _
  | note entry next ih | pause microseconds next ih => exact ih c

theorem Obeys.step (hc : c.Obeys none) (e : Event) : (c.step e).Obeys none := by
  cases e with
  | read address answer =>
    obtain ⟨value, c', hread, -, hc', -⟩ := hc.read address
    simpa only [Chip.step, hread] using hc'
  | write address value accepted =>
    obtain ⟨c', hwrite, hc', -⟩ := hc.write address value
    simpa only [Chip.step, hwrite] using hc'
  | note entry | pause microseconds => exact hc

theorem Obeys.replay (hc : c.Obeys none) (events : List Event) : (c.replay events).Obeys none := by
  induction events generalizing c with
  | nil => exact hc
  | cons e rest ih => exact ih (hc.step e)

theorem Obeys.run {α : Type} (hc : c.Obeys none) (p : Procedure α) :
    (p.run transport c).state.Obeys none :=
  state_run p c ▸ hc.replay _

/-- A chip that refuses nothing takes every write. -/
theorem run_writeByte_step (hc : c.Obeys none) (address : Address) (value : Byte) :
    (writeByte address value).run transport c =
      ⟨.ok (), c.step (.write address value true), [.write address value true]⟩ := by
  obtain ⟨c', hwrite, -, -⟩ := hc.write address value
  rw [run_writeByte]
  simp [transport, Chip.step, hwrite]

/-- What is done after a write is done on the chip that the write has left. -/
theorem events_writeByte_bind (hc : c.Obeys none) (address : Address) (value : Byte)
    {α : Type} (f : Unit → Procedure α) :
    ((writeByte address value >>= f).run transport c).events =
      .write address value true ::
        ((f ()).run transport (c.step (.write address value true))).events := by
  rw [run_bind_of_eq _ _ (run_writeByte_step hc address value)]
  rfl

/-- A write changes its register. -/
theorem Obeys.registers_step_write (hc : c.Obeys none) (address : Address) (value : Byte)
    (accepted : Bool) :
    (c.step (.write address value accepted)).registers = c.registers.set address value := by
  obtain ⟨c', hwrite, -, hregisters⟩ := hc.write address value
  simpa only [Chip.step, hwrite] using hregisters

/-- No other event does. -/
theorem get_step_of_ne {address : Address} {e : Event}
    (h : ∀ value accepted, e ≠ .write address value accepted) (c : Chip) :
    (c.step e).registers.get address = c.registers.get address := by
  cases e with
  | read other answer => exact congrArg (·.get address) (registers_read other c)
  | write other value accepted =>
    have hne : other ≠ address := by
      rintro rfl
      exact h value accepted rfl
    show (c.write other value).2.registers.get address = _
    rw [registers_write]
    cases (c.write other value).1 with
    | false => rfl
    | true => exact RegisterFile.get_set_of_ne _ hne _
  | note entry | pause microseconds => rfl

theorem get_replay_of_not_written {address : Address} {events : List Event}
    (h : ∀ value accepted, .write address value accepted ∉ events) (c : Chip) :
    (c.replay events).registers.get address = c.registers.get address := by
  induction events generalizing c with
  | nil => rfl
  | cons e rest ih =>
    rw [replay_cons, ih fun value accepted hmem => h value accepted (List.mem_cons_of_mem _ hmem)]
    apply get_step_of_ne
    rintro value accepted rfl
    exact h value accepted List.mem_cons_self

end Chip

/-! ## What goes on through a run -/

namespace Procedure

open Chip

variable {α : Type} {c : Chip} {P : List Event → Prop}

/-- Wherever the procedure is run after events of which a statement holds, it holds of these with
its own. The chip is the one that the events lead to from `c`. -/
def Proceeds (c : Chip) (P : List Event → Prop) (p : Procedure α) : Prop :=
  ∀ past, P past → P (past ++ (p.run transport (c.replay past)).events)

theorem compositional_proceeds (c : Chip)
    (hnote : ∀ past entry, (∀ b submodule, entry ≠ .calibrating b submodule) → P past →
      P (past ++ [.note entry])) :
    Compositional fun p => p.Proceeds c P where
  done result := fun past h => by simpa [run] using h
  log entry hentry := fun past h => hnote past entry hentry h
  bind {α β p f} hp hf := by
    intro past h
    have hmid := hp past h
    cases hr : (p.run transport (c.replay past)).result with
    | error fault =>
      rw [run_bind_of_error _ _ hr]
      exact hmid
    | ok a =>
      -- the rest is run where the first part has ended, which is where its events lead
      have hlast := hf a _ hmid
      rw [run_bind_of_ok _ _ hr, ← List.append_assoc, state_run, ← replay_append]
      exact hlast
  attempt hp := fun past h => by
    rw [run_attempt]
    exact hp past h

theorem Proceeds.run {p : Procedure α} (h : p.Proceeds c P) (hP : P []) :
    P (p.run transport c).events :=
  h [] hP

end Procedure

end Transceiver
