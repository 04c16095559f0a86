import Transceiver.Proofs.Bus

/-!
# The reach of a procedure

A procedure on the chip stays within some bits when every run of it, whatever is refused, leaves all
other bits of all registers as they were. A register that is written as a whole is within reach with
all its bits. A field that is set in a stored register is within reach with its own bits only, since
the rest is written back as it has been read.
-/

namespace Transceiver

/-! ## Bits of registers -/

/-- Some adjacent bits of a register. -/
structure Bits where
  address : Address
  offset : Nat
  width : Nat
deriving Repr, DecidableEq

namespace Bits

/-- All bits of a register. -/
def register (address : Address) : Bits :=
  ⟨address, 0, 8⟩

/-- Whether bit `i` of a register is among the bits. -/
def Covers (bits : Bits) (address : Address) (i : Nat) : Prop :=
  bits.address = address ∧ bits.offset ≤ i ∧ i < bits.offset + bits.width

instance (bits : Bits) (address : Address) (i : Nat) : Decidable (bits.Covers address i) :=
  inferInstanceAs (Decidable (_ ∧ _))

end Bits

/-- The bits of a field. -/
def BitField.bits {w : Nat} (field : BitField w) : Bits :=
  ⟨field.address, field.offset, w⟩

namespace RegisterFile

/-- Two register files agree in every bit outside some bits. -/
def AgreeOutside (reach : List Bits) (r r' : RegisterFile) : Prop :=
  ∀ address i, (∀ bits ∈ reach, ¬ bits.Covers address i) →
    (r'.get address).getLsbD i = (r.get address).getLsbD i

variable {reach : List Bits} {r r' r'' : RegisterFile}

theorem AgreeOutside.refl (r : RegisterFile) : AgreeOutside reach r r :=
  fun _ _ _ => rfl

theorem AgreeOutside.trans (h : AgreeOutside reach r r') (h' : AgreeOutside reach r' r'') :
    AgreeOutside reach r r'' :=
  fun address i hi => (h' address i hi).trans (h address i hi)

/-- Setting a field changes no bit outside it. -/
theorem agreeOutside_set {w : Nat} {field : BitField w} (h : field.bits ∈ reach)
    (r : RegisterFile) (value : BitVec w) :
    AgreeOutside reach r (r.set field.address (field.set (r.get field.address) value)) := by
  intro address i hi
  rw [get_set]
  split
  · next ha =>
    subst ha
    have hout : ¬ (field.offset ≤ i ∧ i < field.offset + w) := fun hin => hi _ h ⟨rfl, hin⟩
    rw [BitField.getLsbD_set, if_neg hout]
  · rfl

/-- Setting two fields of one register changes no bit outside them. -/
theorem agreeOutside_set_two {w w' : Nat} {f : BitField w} {g : BitField w'}
    (hf : f.bits ∈ reach) (hg : g.bits ∈ reach) (hsame : g.address = f.address) (r : RegisterFile)
    (value : BitVec w) (value' : BitVec w') :
    AgreeOutside reach r (r.set f.address (g.set (f.set (r.get f.address) value) value')) := by
  have hboth := (agreeOutside_set hf r value).trans (agreeOutside_set hg _ value')
  rw [hsame, get_set_self] at hboth
  intro address i hi
  rw [← hboth address i hi]
  simp only [get_set]
  split <;> rfl

/-- If every other register is as it was, no bit outside has changed. -/
theorem agreeOutside_of_get
    (h : ∀ address, Bits.register address ∉ reach → r'.get address = r.get address) :
    AgreeOutside reach r r' := by
  intro address i hi
  -- a register within reach is there with all its bits, and there are eight of them
  by_cases hmem : Bits.register address ∈ reach
  · have hlarge : 8 ≤ i := Nat.not_lt.1 fun hlt => hi _ hmem ⟨rfl, Nat.zero_le i, hlt⟩
    rw [BitVec.getLsbD_of_ge _ _ hlarge, BitVec.getLsbD_of_ge _ _ hlarge]
  · rw [h address hmem]

/-- Writes to registers within reach change no bit outside. -/
theorem agreeOutside_after {events : List Event}
    (h : ∀ address value, .write address value true ∈ events → Bits.register address ∈ reach)
    (r : RegisterFile) : AgreeOutside reach r (r.after events) :=
  agreeOutside_of_get fun address hout =>
    get_after (fun value hwrite => hout (h address value hwrite)) r

end RegisterFile

namespace Procedure

open Chip

variable {α β : Type} {reach : List Bits}

/-- Whatever is refused, the procedure changes only bits within its reach. -/
def Within (reach : List Bits) (p : Procedure α) : Prop :=
  ∀ (refused : Nat → Bool) (s : Nat × Chip),
    s.2.registers.AgreeOutside reach (p.run (bus refused) s).state.2.registers

/-- A procedure whose writes go to whole registers within reach is within it. -/
theorem within_of_writesOnly {p : Procedure α}
    (h : p.WritesOnly fun address _ => Bits.register address ∈ reach) : p.Within reach := by
  intro refused s
  rw [registers_run]
  exact RegisterFile.agreeOutside_after (fun _ _ hmem => h.of_mem _ _ hmem) _

theorem within_pure (a : α) : (pure a : Procedure α).Within reach :=
  within_of_writesOnly trivial

theorem within_fail (fault : Fault) : (fail fault : Procedure α).Within reach :=
  within_of_writesOnly trivial

theorem within_log (entry : Note) : (log entry).Within reach :=
  within_of_writesOnly trivial

/-- A byte may be written to a register that is within reach as a whole. -/
theorem within_writeByte {address : Address} (h : Bits.register address ∈ reach) (value : Byte) :
    (writeByte address value).Within reach :=
  within_of_writesOnly ((writesOnly_writeByte address value).2 h)

/-- Both parts of a sequence are within reach if the sequence is to be. -/
theorem Within.bind {p : Procedure α} {f : α → Procedure β} (hp : p.Within reach)
    (hf : ∀ a, (f a).Within reach) : (p >>= f).Within reach := by
  intro refused s
  cases hr : (p.run (bus refused) s).result with
  | error fault =>
    rw [run_bind_of_error _ _ hr]
    exact hp refused s
  | ok a =>
    rw [run_bind_of_ok _ _ hr]
    exact (hp refused s).trans (hf a refused _)

theorem Within.map {p : Procedure α} (hp : p.Within reach) (f : α → β) :
    (f <$> p).Within reach := by
  rw [← bind_pure_comp]
  exact hp.bind fun a => within_pure (f a)

/-- Assigning a field changes the bits of the field: the rest of its register is written as it has
been read. -/
theorem within_assign {w : Nat} {field : BitField w} (hs : (Site.at field.address).isStored)
    (h : field.bits ∈ reach) (value : BitVec w) : (assign field value).Within reach := by
  intro refused s
  cases atomic_modify refused hs (field.set · value) s with
  | refused refusal result registers =>
    rw [assign, registers]
    exact .refl _
  | accepted accepted result registers =>
    rw [assign, registers]
    exact RegisterFile.agreeOutside_set h _ value

/-- A flag is a field of one bit. -/
theorem within_put {flag : Flag} (hs : (Site.at flag.address).isStored) (h : flag.bits ∈ reach)
    (on : Bool) : (put flag on).Within reach :=
  within_assign hs h (BitVec.ofBool on)

/-- A forced sequence is within reach if all of its steps are. -/
theorem within_forceAll {ps : List (Procedure Unit)} (h : ∀ p ∈ ps, p.Within reach) :
    (forceAll ps).Within reach := by
  intro refused s
  induction ps generalizing s with
  | nil => exact .refl _
  | cons p rest ih =>
    rw [run_forceAll_cons]
    exact (h p List.mem_cons_self refused s).trans
      (ih (fun q hq => h q (List.mem_cons_of_mem _ hq)) _)

end Procedure

end Transceiver
