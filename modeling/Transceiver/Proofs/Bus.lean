import Transceiver.Chip
import Transceiver.Proofs.Writes

/-!
# Runs on the chip

On the chip, what a run does to the registers can be read off its events: the registers afterwards
are those before with the accepted writes gone through. Most registers are stored as they are
written, and for those an access has two outcomes only. It is refused and changes nothing, or it
goes through.
-/

namespace Transceiver

/-! ## Events and registers -/

namespace RegisterFile

/-- The register file after an event: an accepted write has gone through. -/
def step (r : RegisterFile) : Event → RegisterFile
  | .write address value true => r.set address value
  | .write _ _ false | .read _ _ | .note _ | .pause _ => r

/-- The register file after some events. -/
def after (r : RegisterFile) (events : List Event) : RegisterFile :=
  events.foldl step r

@[simp] theorem after_nil (r : RegisterFile) : r.after [] = r :=
  rfl

@[simp] theorem after_cons (r : RegisterFile) (e : Event) (events : List Event) :
    r.after (e :: events) = (r.step e).after events :=
  rfl

/-- Events act on the registers one after the other. -/
@[simp] theorem after_append (r : RegisterFile) (left right : List Event) :
    r.after (left ++ right) = (r.after left).after right :=
  List.foldl_append

/-- A register that is not written keeps its contents. -/
theorem get_after {address : Address} {events : List Event}
    (h : ∀ value, .write address value true ∉ events) (r : RegisterFile) :
    (r.after events).get address = r.get address := by
  induction events generalizing r with
  | nil => rfl
  | cons e events ih =>
    rw [after_cons, ih fun value hmem => h value (List.mem_cons_of_mem _ hmem)]
    match e with
    | .write a value true =>
      have hne : a ≠ address := by
        rintro rfl
        exact h value List.mem_cons_self
      exact get_set_of_ne r hne value
    | .write _ _ false | .read _ _ | .note _ | .pause _ => rfl

/-- Registers without an accepted write are as before. -/
theorem after_eq_self {events : List Event}
    (h : ∀ address value, .write address value true ∉ events) (r : RegisterFile) :
    r.after events = r :=
  ext_get fun address => get_after (h address) r

end RegisterFile

/-! ## The chip behind a bus that refuses accesses -/

namespace Chip

/-- The chip behind a bus that refuses the accesses whose number `refused` holds of. -/
abbrev bus (refused : Nat → Bool) : Transport (Nat × Chip) :=
  transport.refusing refused

/-- What a procedure returns when it is run on the chip and no access is refused. -/
def shows {α : Type} (c : Chip) (p : Procedure α) : Except Fault α :=
  (p.run transport { c with failRead := none, failWrite := none }).result

/-- Reading the comparators of a tuning voltage changes no register. -/
theorem registers_readVoltage (c : Chip) (h : Half) :
    (c.readVoltage h).2.registers = c.registers := by
  unfold readVoltage
  split
  · rfl
  · split <;> rfl

/-- No read changes a register. -/
theorem registers_read (address : Address) (c : Chip) :
    (c.read address).2.registers = c.registers := by
  unfold read
  split
  · rfl
  · cases Site.at address with
    | voltage half => exact registers_readVoltage c half
    | status block => rfl
    | memory | value block | control block => rfl

/-- What a strobe does happens in the engine, not in the registers. -/
theorem registers_strobe (c : Chip) (b : Calibration.Block) (control : Byte) :
    (c.strobe b control).registers = c.registers := by
  simp only [strobe]
  split <;> split <;> rfl

/-- A write that is accepted stores its byte, whatever else it sets off. -/
theorem registers_write (address : Address) (value : Byte) (c : Chip) :
    (c.write address value).2.registers =
      c.registers.step (.write address value (c.write address value).1) := by
  unfold write
  split
  · rfl
  · cases Site.at address with
    | control block => exact registers_strobe _ block value
    | memory | voltage half | value block | status block => rfl

/-! ## On the bus -/

variable (refused : Nat → Bool)

theorem registers_bus_read (address : Address) (s : Nat × Chip) :
    ((bus refused).read address s).2.2.registers = s.2.registers := by
  simp only [bus, Transport.refusing]
  split
  · rfl
  · exact registers_read address s.2

/-- The bus writes what the chip does, unless it refuses. -/
theorem registers_bus_write (address : Address) (value : Byte) (s : Nat × Chip) :
    ((bus refused).write address value s).2.2.registers =
      s.2.registers.step (.write address value ((bus refused).write address value s).1) := by
  simp only [bus, Transport.refusing]
  split
  · rfl
  · exact registers_write address value s.2

end Chip

namespace Procedure

variable {α : Type} (refused : Nat → Bool)

open Chip

/-- The registers after a run are those before, with the accepted writes gone through. -/
theorem registers_run (p : Procedure α) (s : Nat × Chip) :
    (p.run (bus refused) s).state.2.registers =
      s.2.registers.after (p.run (bus refused) s).events := by
  -- the induction follows the tree; only an accepted write moves the registers
  induction p generalizing s with
  | done result => rfl
  | read address next ih =>
    have := registers_bus_read refused address s
    simp only [run, ih, RegisterFile.after_cons]
    rw [this]
    rfl
  | write address value next ih =>
    simp only [run, ih, RegisterFile.after_cons]
    rw [registers_bus_write]
  | note entry next ih =>
    simp only [run, ih]
    rfl
  | pause microseconds next ih =>
    simp only [run, ih]
    rfl

end Procedure

/-! ## Registers that are plain memory -/

/-- Whether a site shows at a read what its register holds. -/
def Site.isStored : Site → Bool
  | .memory | .control _ => true
  | .voltage _ | .value _ | .status _ => false

namespace Chip

/-- Plain memory answers with its contents or refuses, and the chip stays as it is. -/
theorem read_stored {address : Address} (h : (Site.at address).isStored) (c : Chip) :
    c.read address = (none, c) ∨ c.read address = (some (c.registers.get address), c) := by
  unfold read
  split
  · exact .inl rfl
  · cases hs : Site.at address with
    | memory | control block => exact .inr rfl
    | voltage half | value block | status block => simp [hs, Site.isStored] at h

end Chip

namespace Procedure

open Chip

variable (refused : Nat → Bool)

/-- A read of a stored register is refused or shows what it holds. -/
theorem run_readByte_stored {address : Address} (h : (Site.at address).isStored)
    (s : Nat × Chip) :
    (readByte address).run (bus refused) s =
        ⟨.error .io, (s.1 + 1, s.2), [.read address none]⟩ ∨
      (readByte address).run (bus refused) s =
        ⟨.ok (s.2.registers.get address), (s.1 + 1, s.2),
          [.read address (some (s.2.registers.get address))]⟩ := by
  have hread : (bus refused).read address s = (none, s.1 + 1, s.2) ∨
      (bus refused).read address s = (some (s.2.registers.get address), s.1 + 1, s.2) := by
    show (if refused s.1 then _ else _) = _ ∨ (if refused s.1 then _ else _) = _
    split
    · exact .inl rfl
    · rcases read_stored h s.2 with hr | hr <;> simp [transport, hr]
  rw [run_readByte]
  rcases hread with hr | hr <;> simp [hr]

end Procedure

namespace Chip

open Procedure

/-- Without a bus and with no access refused, a stored register shows what it holds. -/
theorem run_readByte_transport {address : Address} (h : (Site.at address).isStored) {c : Chip}
    (hc : c.failRead = none) :
    (readByte address).run transport c =
      ⟨.ok (c.registers.get address), c,
        [.read address (some (c.registers.get address))]⟩ := by
  have hread : c.read address = (some (c.registers.get address), c) := by
    rw [read, if_neg (by simp [hc])]
    cases hs : Site.at address with
    | memory | control block => rfl
    | voltage half | value block | status block => simp [hs, Site.isStored] at h
  rw [run_readByte]
  simp [transport, hread]

end Chip

/-! ## Atomic runs -/

/-- The run goes through, with a given result and given registers afterwards, or it is refused and
leaves the registers as they were. -/
inductive Outcome.Atomic {α : Type} (before after : RegisterFile) (value : Except Fault α)
    (o : Outcome (Nat × Chip) α) : Prop where
  | refused (refusal : ∃ e ∈ o.events, e.isRefused) (result : o.result = .error .io)
    (registers : o.state.2.registers = before)
  | accepted (accepted : ∀ e ∈ o.events, e.isRefused = false) (result : o.result = value)
    (registers : o.state.2.registers = after)

namespace Procedure

open Chip

variable {α β : Type} (refused : Nat → Bool)

theorem atomic_pure (a : α) (s : Nat × Chip) :
    ((pure a : Procedure α).run (bus refused) s).Atomic s.2.registers s.2.registers (.ok a) :=
  .accepted (by simp) rfl rfl

theorem atomic_fail (fault : Fault) (s : Nat × Chip) :
    ((fail fault : Procedure α).run (bus refused) s).Atomic s.2.registers s.2.registers
      (.error fault) :=
  .accepted (by simp) rfl rfl

theorem atomic_log (entry : Note) (s : Nat × Chip) :
    ((log entry).run (bus refused) s).Atomic s.2.registers s.2.registers (.ok ()) :=
  .accepted (by simp [Event.isRefused]) rfl rfl

/-- A read of plain memory gives its contents, or nothing has happened. -/
theorem atomic_readByte {address : Address} (h : (Site.at address).isStored) (s : Nat × Chip) :
    ((readByte address).run (bus refused) s).Atomic s.2.registers s.2.registers
      (.ok (s.2.registers.get address)) := by
  rcases run_readByte_stored refused h s with hr | hr
  · rw [hr]
    exact .refused ⟨_, List.mem_singleton_self _, rfl⟩ rfl rfl
  · rw [hr]
    exact .accepted (by simp [Event.isRefused]) rfl rfl

/-- A write is made, or nothing has happened. -/
theorem atomic_writeByte (address : Address) (value : Byte) (s : Nat × Chip) :
    ((writeByte address value).run (bus refused) s).Atomic s.2.registers
      (s.2.registers.set address value) (.ok ()) := by
  have hregs := registers_run refused (writeByte address value) s
  rw [run_writeByte] at hregs ⊢
  generalize (bus refused).write address value s = answer at hregs ⊢
  rcases answer with ⟨_ | _, s'⟩
  · exact .refused ⟨_, List.mem_singleton_self _, rfl⟩ rfl hregs
  · exact .accepted (by simp [Event.isRefused]) rfl hregs

/-- What comes after an atomic run that has changed nothing can be as atomic. -/
theorem atomic_bind {p : Procedure α} {f : α → Procedure β} {s : Nat × Chip} {a : α}
    {after : RegisterFile} {value : Except Fault β}
    (hp : (p.run (bus refused) s).Atomic s.2.registers s.2.registers (.ok a))
    (hf : ∀ s', s'.2.registers = s.2.registers →
      ((f a).run (bus refused) s').Atomic s'.2.registers after value) :
    ((p >>= f).run (bus refused) s).Atomic s.2.registers after value := by
  cases hp with
  | refused refusal result registers =>
    rw [run_bind_of_error _ _ result]
    exact .refused refusal rfl registers
  | accepted accepted result registers =>
    -- the second part starts from the registers of the first, so its outcome is that of both
    have hrest := hf _ registers
    rw [run_bind_of_ok _ _ result]
    cases hrest with
    | refused refusal result' registers' =>
      obtain ⟨e, he, href⟩ := refusal
      exact .refused ⟨e, List.mem_append_right _ he, href⟩ result' (registers'.trans registers)
    | accepted accepted' result' registers' =>
      refine .accepted (fun e he => ?_) result' registers'
      rcases List.mem_append.1 he with he | he
      · exact accepted e he
      · exact accepted' e he

/-- A sequence whose first part fails does what that part does. -/
theorem atomic_bind_of_error {p : Procedure α} {s : Nat × Chip} {after : RegisterFile}
    {fault : Fault} (hp : (p.run (bus refused) s).Atomic s.2.registers after (.error fault))
    (f : α → Procedure β) :
    ((p >>= f).run (bus refused) s).Atomic s.2.registers after (.error fault) := by
  cases hp with
  | refused refusal result registers =>
    rw [run_bind_of_error _ _ result]
    exact .refused refusal rfl registers
  | accepted accepted result registers =>
    rw [run_bind_of_error _ _ result]
    exact .accepted accepted rfl registers

theorem atomic_map {p : Procedure α} {s : Nat × Chip} {a : α} {after : RegisterFile}
    (hp : (p.run (bus refused) s).Atomic s.2.registers after (.ok a)) (f : α → β) :
    ((f <$> p).run (bus refused) s).Atomic s.2.registers after (.ok (f a)) := by
  rw [← bind_pure_comp]
  cases hp with
  | refused refusal result registers =>
    rw [run_bind_of_error _ _ result]
    exact .refused refusal rfl registers
  | accepted accepted result registers =>
    rw [run_bind_of_ok _ _ result]
    exact .accepted (by simpa using accepted) rfl registers

/-- Changing plain memory makes the change, or nothing has happened. -/
theorem atomic_modify {address : Address} (h : (Site.at address).isStored)
    (change : Byte → Byte) (s : Nat × Chip) :
    ((modify address change).run (bus refused) s).Atomic s.2.registers
      (s.2.registers.set address (change (s.2.registers.get address))) (.ok ()) :=
  atomic_bind refused (atomic_readByte refused h s) fun s' hs =>
    hs ▸ atomic_writeByte refused address (change (s.2.registers.get address)) s'

theorem atomic_load {w : Nat} {field : BitField w} (h : (Site.at field.address).isStored)
    (s : Nat × Chip) :
    ((load field).run (bus refused) s).Atomic s.2.registers s.2.registers
      (.ok (field.get (s.2.registers.get field.address))) :=
  atomic_bind refused (atomic_readByte refused h s) fun s' hs => hs ▸ atomic_pure refused _ s'

end Procedure

end Transceiver
