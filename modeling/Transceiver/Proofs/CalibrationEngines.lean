import Transceiver.Proofs.CalibrationAttempts
import Transceiver.Proofs.Preconditions

/-!
# What the calibration engines hold

An engine is moved by its control register and by the polls of its status, and by nothing else. A
byte written to the control register with the load strobe latches the count into the submodule that
the byte addresses; with the start strobe it starts a calibration of that submodule; without either
it only moves what the value register shows. So the values of all slots can be read without
changing any of them.
-/

namespace Transceiver

open Procedure Register

namespace Calibration

/-- A value for every submodule of every block. -/
abbrev Corrections := Block → BitVec 3 → BitVec 6

namespace Corrections

/-- The corrections with a new one in a submodule. -/
def set (held : Corrections) (b : Block) (submodule : BitVec 3) (value : BitVec 6) : Corrections :=
  fun b' submodule' => if b = b' ∧ submodule = submodule' then value else held b' submodule'

/-- The corrections of the slots, as they are read. -/
def values (held : Corrections) : Values :=
  fun slot => some ((held slot.block slot.submodule).setWidth 8)

end Corrections

/-- Every slot is in the list of all. -/
theorem Slot.mem_all (slot : Slot) : slot ∈ Slot.all := by
  cases slot <;> decide

/-- Every slot is a submodule of its block. -/
theorem Slot.submodule_lt (slot : Slot) : slot.submodule.toNat < slot.block.submodules := by
  cases slot <;> decide

/-- A slot is settled by its block and its submodule. -/
theorem Slot.eq_of_place {slot other : Slot} (hblock : slot.block = other.block)
    (hsubmodule : slot.submodule = other.submodule) : slot = other := by
  revert hblock hsubmodule
  cases slot <;> cases other <;> decide

end Calibration

/-! ## Bytes for the control register -/

namespace Calibration

/-- A byte for the control register that has no strobe. -/
structure Block.Idle (b : Block) (control : Byte) : Prop where
  load : (Dc.load b).isSet control = false
  start : (Dc.start b).isSet control = false

/-- The strobes and the submodule share a register, and to put one of them leaves the others. -/
theorem isSet_start_put_load (b : Block) (control : Byte) (on : Bool) :
    (Dc.start b).isSet ((Dc.load b).put control on) = (Dc.start b).isSet control :=
  BitField.isSet_put_of_disjoint (by cases b <;> decide) _ _

theorem isSet_start_set_submodule (b : Block) (control : Byte) (submodule : BitVec 3) :
    (Dc.start b).isSet ((Dc.submodule b).set control submodule) = (Dc.start b).isSet control :=
  BitField.isSet_set_of_disjoint (by cases b <;> decide) _ _

theorem isSet_load_put_start (b : Block) (control : Byte) (on : Bool) :
    (Dc.load b).isSet ((Dc.start b).put control on) = (Dc.load b).isSet control :=
  BitField.isSet_put_of_disjoint (by cases b <;> decide) _ _

namespace Block.Idle

variable {b : Block} {control : Byte}

/-- An idle byte stays idle with another submodule. -/
theorem set_submodule (h : b.Idle control) (submodule : BitVec 3) :
    b.Idle ((Dc.submodule b).set control submodule) where
  load := (BitField.isSet_set_of_disjoint (by cases b <;> decide) _ _).trans h.load
  start := (isSet_start_set_submodule b control submodule).trans h.start

/-- A strobe that is put and taken back leaves no strobe. -/
theorem release_load (h : b.Idle control) :
    b.Idle ((Dc.load b).put ((Dc.load b).put control true) false) where
  load := BitField.isSet_put _ _ _
  start := by rw [isSet_start_put_load, isSet_start_put_load, h.start]

/-- A byte whose start strobe has been put and cleared is idle. -/
theorem release_start (h : b.Idle control) :
    b.Idle ((Dc.start b).put ((Dc.start b).put control true) false) where
  load := by rw [isSet_load_put_start, isSet_load_put_start, h.load]
  start := BitField.isSet_put _ _ _

end Block.Idle

/-- The result that the next run comes to. -/
def upcoming (results : List Byte) : BitVec 6 :=
  match results with
  | [] => defaultValue
  | result :: _ => result.setWidth 6

end Calibration

/-! ## What moves the engines -/

namespace Chip

open Calibration

/-- What the engines hold. -/
def corrections (c : Chip) : Corrections :=
  fun b submodule => (c.engines.get b).value submodule

/-- The chip with new contents of a register, and nothing else moved. -/
def store (c : Chip) (address : Address) (value : Byte) : Chip :=
  { c with registers := c.registers.set address value }

variable {c : Chip}

theorem Obeys.store (hc : c.Obeys none) (address : Address) (value : Byte) :
    (c.store address value).Obeys none :=
  ⟨hc.reads, hc.writes, fun _ hw => nomatch hw⟩

/-- Latching a count refuses nothing later. -/
theorem Obeys.latch (hc : c.Obeys none) (b : Block) (submodule : BitVec 3) :
    (c.latch b submodule).Obeys none :=
  ⟨hc.reads, hc.writes, fun _ hw => nomatch hw⟩

theorem Obeys.start (hc : c.Obeys none) (b : Block) (submodule : BitVec 3) :
    (c.start b submodule).Obeys none :=
  ⟨hc.reads, hc.writes, fun _ hw => nomatch hw⟩

/-- What a register holds is no correction. -/
@[simp] theorem corrections_store (c : Chip) (address : Address) (value : Byte) :
    (c.store address value).corrections = c.corrections :=
  rfl

/-- The corrections of a block are those of its engine. -/
theorem corrections_setEngine (c : Chip) (b : Block) (engine : Engine) :
    ({ c with engines := c.engines.set b engine } : Chip).corrections = fun b' submodule =>
      if b = b' then engine.value submodule else c.corrections b' submodule := by
  funext b' submodule
  simp only [corrections, Engines.get_set]
  split <;> rfl

/-- Storing a value in an engine changes one value. -/
theorem corrections_storeEngine (c : Chip) (b : Block) {engine : Engine} {submodule : BitVec 3}
    {value : BitVec 6}
    (h : ∀ s, engine.value s = ((c.engines.get b).store submodule value).value s) :
    ({ c with engines := c.engines.set b engine } : Chip).corrections =
      c.corrections.set b submodule value := by
  rw [corrections_setEngine]
  funext b' submodule'
  by_cases hb : b = b'
  · subst hb
    simp [h, Engine.value_store, Corrections.set, corrections]
  · simp [hb, Corrections.set]

/-- Latching changes one value, to the count in the register. -/
theorem corrections_latch (c : Chip) (b : Block) (submodule : BitVec 3) :
    (c.latch b submodule).corrections =
      c.corrections.set b submodule (c.registers.field (Dc.count b)) :=
  corrections_storeEngine c b fun _ => rfl

/-- An engine with the same values in place of one changes no value. -/
theorem corrections_keepEngine (c : Chip) (b : Block) {engine : Engine}
    (h : ∀ s, engine.value s = (c.engines.get b).value s) :
    ({ c with engines := c.engines.set b engine } : Chip).corrections = c.corrections := by
  rw [corrections_setEngine]
  funext b' submodule
  by_cases hb : b = b'
  · rw [if_pos hb, h, ← hb]
    rfl
  · rw [if_neg hb]

/-- Starting changes no value yet. -/
theorem corrections_start (c : Chip) (b : Block) (submodule : BitVec 3) :
    (c.start b submodule).corrections = c.corrections :=
  corrections_keepEngine c b fun _ => rfl

/-- A run that is started takes the next result. -/
theorem run_start (c : Chip) (b : Block) (submodule : BitVec 3) :
    ((c.start b submodule).engines.get b).run =
      some ⟨submodule, upcoming c.results, c.busyPolls⟩ := by
  rw [start, Engines.get_set, if_pos rfl]
  cases c.results <;> rfl

/-! ## Accesses to the registers of a block -/

/-- A register that is plain memory stores what is written to it. -/
theorem run_writeByte_memory (hc : c.Obeys none) {address : Address}
    (hs : Site.at address = .memory) (value : Byte) :
    (writeByte address value).run transport c =
      ⟨.ok (), c.store address value, [.write address value true]⟩ := by
  have hwrite : c.write address value = (true, c.store address value) := by
    simp [write, hc.writes, hs, store]
  rw [run_writeByte]
  simp [transport, hwrite]

/-- A write to the control register strobes the engine. -/
theorem run_writeByte_control (hc : c.Obeys none) (b : Block) (control : Byte) :
    (writeByte (Dc.submodule b).address control).run transport c =
      ⟨.ok (), (c.store (Dc.submodule b).address control).strobe b control,
        [.write (Dc.submodule b).address control true]⟩ := by
  have hwrite : c.write (Dc.submodule b).address control =
      (true, (c.store (Dc.submodule b).address control).strobe b control) := by
    simp [write, hc.writes, store]
  rw [run_writeByte]
  simp [transport, hwrite]

/-- The control register is read back as it was written. -/
theorem stored_control (b : Block) : (Site.at (Dc.submodule b).address).isStored := by
  rw [Site.at_submodule]
  rfl

section Strobes

variable {b : Block} {control : Byte}

/-- Without a strobe the control register is plain memory. -/
theorem run_writeByte_idle (hc : c.Obeys none) (h : b.Idle control) :
    (writeByte (Dc.submodule b).address control).run transport c =
      ⟨.ok (), c.store (Dc.submodule b).address control,
        [.write (Dc.submodule b).address control true]⟩ := by
  rw [run_writeByte_control hc]
  simp [strobe, h.load, h.start]

/-- The load strobe latches the count into the addressed submodule. -/
theorem run_writeByte_load (hc : c.Obeys none) (h : b.Idle control) :
    let strobed := (Dc.load b).put control true
    (writeByte (Dc.submodule b).address strobed).run transport c =
      ⟨.ok (), (c.store (Dc.submodule b).address strobed).latch b ((Dc.submodule b).get control),
        [.write (Dc.submodule b).address strobed true]⟩ := by
  intro strobed
  have hload : (Dc.load b).isSet strobed = true := BitField.isSet_put _ _ _
  have hstart : (Dc.start b).isSet strobed = false := by rw [isSet_start_put_load, h.start]
  rw [run_writeByte_control hc]
  simp [strobe, hload, hstart, strobed, get_submodule_put_load]

/-- The start strobe puts a run of the addressed submodule under way. -/
theorem run_writeByte_start (hc : c.Obeys none) (h : b.Idle control) :
    let strobed := (Dc.start b).put control true
    (writeByte (Dc.submodule b).address strobed).run transport c =
      ⟨.ok (), (c.store (Dc.submodule b).address strobed).start b ((Dc.submodule b).get control),
        [.write (Dc.submodule b).address strobed true]⟩ := by
  intro strobed
  have hload : (Dc.load b).isSet strobed = false := by rw [isSet_load_put_start, h.load]
  have hstart : (Dc.start b).isSet strobed = true := BitField.isSet_put _ _ _
  rw [run_writeByte_control hc]
  simp [strobe, hload, hstart, strobed, get_submodule_put_start]

end Strobes

/-- The value register shows the value of the addressed submodule. -/
theorem run_readByte_value (hc : c.Obeys none) (b : Block) :
    let value := c.corrections b (c.registers.field (Dc.submodule b))
    (readByte (Dc.value b).address).run transport c =
      ⟨.ok (value.setWidth 8), c, [.read (Dc.value b).address (some (value.setWidth 8))]⟩ := by
  have hread : c.read (Dc.value b).address = (some ((c.shownValue b).setWidth 8), c) := by
    simp [read, hc.reads]
  rw [run_readByte]
  simp only [transport, hread]
  rfl

/-- The value register shows the correction of the submodule that is addressed. -/
theorem run_load_value (hc : c.Obeys none) (b : Block) :
    let value := c.corrections b (c.registers.field (Dc.submodule b))
    (load (Dc.value b)).run transport c =
      ⟨.ok value, c, [.read (Dc.value b).address (some (value.setWidth 8))]⟩ := by
  intro value
  have hfield : (Dc.value b).get (value.setWidth 8) = value := by
    apply BitVec.eq_of_getLsbD_eq
    intro i hi
    rw [BitField.getLsbD_get]
    simp [Dc.value, hi, show i < 8 by omega]
  rw [load, run_bind_of_eq _ _ (run_readByte_value hc b), hfield]
  rfl

end Chip

/-! ## Latching a count and starting a run -/

namespace Calibration

/-- Addresses a submodule, writes a count, and puts the load strobe and takes it back. -/
def latchCount (b : Block) (control : Byte) (count : BitVec 6) (released : Byte) :
    Procedure Unit := do
  writeByte (Dc.submodule b).address control
  writeByte (Dc.count b).address ((Dc.count b).set 0 count)
  writeByte (Dc.submodule b).address ((Dc.load b).put control true)
  writeByte (Dc.submodule b).address released

/-- Puts the start strobe and takes it back. -/
def putStart (b : Block) (control : Byte) : Procedure Unit := do
  writeByte (Dc.submodule b).address ((Dc.start b).put control true)
  writeByte (Dc.submodule b).address ((Dc.start b).put ((Dc.start b).put control true) false)

end Calibration

namespace Chip

open Calibration

/-- The chip after a count has been latched. -/
def latched (c : Chip) (b : Block) (control : Byte) (count : BitVec 6) (released : Byte) : Chip :=
  let counted := (c.store (Dc.submodule b).address control).store (Dc.count b).address
    ((Dc.count b).set 0 count)
  ((counted.store (Dc.submodule b).address ((Dc.load b).put control true)).latch b
    ((Dc.submodule b).get control)).store (Dc.submodule b).address released

/-- The chip after a run has been started. -/
def begun (c : Chip) (b : Block) (control : Byte) : Chip :=
  let strobed := (Dc.start b).put control true
  ((c.store (Dc.submodule b).address strobed).start b ((Dc.submodule b).get control)).store
    (Dc.submodule b).address ((Dc.start b).put strobed false)

variable {c : Chip} {b : Block} {control released : Byte}

theorem Obeys.latched (hc : c.Obeys none) (b : Block) (control : Byte) (count : BitVec 6)
    (released : Byte) : (c.latched b control count released).Obeys none :=
  (((hc.store _ _).store _ _).store _ _).latch b _ |>.store _ _

theorem Obeys.begun (hc : c.Obeys none) (b : Block) (control : Byte) :
    (c.begun b control).Obeys none :=
  ((hc.store _ _).start b _).store _ _

/-- The addressed submodule holds the count, and no other value is changed. -/
theorem corrections_latched (c : Chip) (b : Block) (control : Byte) (count : BitVec 6)
    (released : Byte) :
    (c.latched b control count released).corrections =
      c.corrections.set b ((Dc.submodule b).get control) count := by
  have hne : (Dc.submodule b).address ≠ (Dc.count b).address := by cases b <;> decide
  have hfield (c : Chip) (strobed : Byte) :
      ((c.store (Dc.count b).address ((Dc.count b).set 0 count)).store (Dc.submodule b).address
        strobed).registers.field (Dc.count b) = count := by
    simp only [store, RegisterFile.field]
    rw [RegisterFile.get_set_of_ne _ hne, RegisterFile.get_set_self, BitField.get_set_self]
  rw [latched, corrections_store, corrections_latch, hfield]
  rfl

/-- To start an engine changes no correction. -/
theorem corrections_begun (c : Chip) (b : Block) (control : Byte) :
    (c.begun b control).corrections = c.corrections := by
  rw [begun, corrections_store, corrections_start, corrections_store]

/-- The strobe is cleared again in the end. -/
theorem get_begun (c : Chip) (b : Block) (control : Byte) :
    (c.begun b control).registers.get (Dc.submodule b).address =
      (Dc.start b).put ((Dc.start b).put control true) false :=
  RegisterFile.get_set_self _ _ _

/-- Latching strobes the engine once, with the count in place. -/
theorem run_latchCount (hc : c.Obeys none) (hcontrol : b.Idle control) (hreleased : b.Idle released)
    (count : BitVec 6) :
    (latchCount b control count released).run transport c =
      ⟨.ok (), c.latched b control count released, [
        .write (Dc.submodule b).address control true,
        .write (Dc.count b).address ((Dc.count b).set 0 count) true,
        .write (Dc.submodule b).address ((Dc.load b).put control true) true,
        .write (Dc.submodule b).address released true]⟩ := by
  have haddressed := hc.store (Dc.submodule b).address control
  have hcounted := haddressed.store (Dc.count b).address ((Dc.count b).set 0 count)
  have hlatched := (hcounted.store (Dc.submodule b).address ((Dc.load b).put control true)).latch b
    ((Dc.submodule b).get control)
  rw [latchCount, run_bind_of_eq _ _ (run_writeByte_idle hc hcontrol),
    run_bind_of_eq _ _ (run_writeByte_memory haddressed (Site.at_count b) _),
    run_bind_of_eq _ _ (run_writeByte_load hcounted hcontrol),
    run_writeByte_idle hlatched hreleased]
  rfl

/-- The start strobe is put and cleared by a write each. -/
theorem run_putStart (hc : c.Obeys none) (h : b.Idle control) :
    (putStart b control).run transport c =
      ⟨.ok (), c.begun b control, [
        .write (Dc.submodule b).address ((Dc.start b).put control true) true,
        .write (Dc.submodule b).address
          ((Dc.start b).put ((Dc.start b).put control true) false) true]⟩ := by
  have hstarted := (hc.store (Dc.submodule b).address ((Dc.start b).put control true)).start b
    ((Dc.submodule b).get control)
  rw [putStart, run_bind_of_eq _ _ (run_writeByte_start hc h),
    run_writeByte_idle hstarted h.release_start]
  rfl

end Chip

/-! ## Reading the values -/

namespace Calibration

open Chip

/-- The byte that addresses a submodule holds its number. -/
theorem submodule_addressing (b : Block) (submodule : BitVec 3) :
    (Dc.submodule b).get (addressing b submodule) = submodule :=
  BitField.get_set_self _ _ _

/-- It puts no strobe. -/
theorem idle_addressing (b : Block) (submodule : BitVec 3) : b.Idle (addressing b submodule) := by
  apply Block.Idle.set_submodule
  cases b <;> exact ⟨by decide, by decide⟩

variable {c : Chip}

/-- Reading a slot gives what the engine holds, and leaves that alone. -/
theorem run_readSlot (hc : c.Obeys none) (slot : Slot) :
    let o := (readSlot slot).run transport c
    o.result = .ok (c.corrections slot.block slot.submodule) ∧
      o.state.corrections = c.corrections ∧ o.state.Obeys none := by
  intro o
  have hidle := idle_addressing slot.block slot.submodule
  have hwrite := run_writeByte_idle hc hidle
  have haddressed := hc.store (Dc.submodule slot.block).address
    (addressing slot.block slot.submodule)
  have hfield : (c.store (Dc.submodule slot.block).address
      (addressing slot.block slot.submodule)).registers.field (Dc.submodule slot.block) =
        slot.submodule := by
    rw [RegisterFile.field, store, RegisterFile.get_set_self, submodule_addressing]
  have ho : o = _ := run_bind_of_eq _ _ hwrite
  rw [ho, run_load_value haddressed, hfield]
  exact ⟨rfl, rfl, haddressed⟩

/-- Slots are read one after the other, and reading them changes no correction. -/
theorem run_readSlots (hc : c.Obeys none) (slots : List Slot) :
    let o := (slots.mapM readSlot).run transport c
    o.result = .ok (slots.map fun slot => c.corrections slot.block slot.submodule) ∧
      o.state.corrections = c.corrections ∧ o.state.Obeys none := by
  -- the chip is generalized: reading a slot moves its control register
  induction slots generalizing c with
  | nil => exact ⟨rfl, rfl, hc⟩
  | cons slot rest ih =>
    intro o
    obtain ⟨hfirst, hkept, hobeys⟩ := run_readSlot hc slot
    obtain ⟨hrest, hkept', hobeys'⟩ := ih hobeys
    have ho : o = ((readSlot slot >>= fun value =>
        rest.mapM readSlot >>= fun values => pure (value :: values))).run transport c := by
      simp only [o, List.mapM_cons]
    rw [ho, run_bind_of_ok _ _ hfirst, run_bind_of_ok _ _ hrest]
    simp only [run_pure, List.map_cons, hkept]
    exact ⟨trivial, hkept'.trans hkept, hobeys'⟩

/-- Reading all values changes none of them. -/
theorem run_readValues (hc : c.Obeys none) :
    let o := readValues.run transport c
    o.result = .ok c.corrections.values ∧ o.state.corrections = c.corrections ∧
      o.state.Obeys none := by
  intro o
  obtain ⟨hresult, hkept, hobeys⟩ := run_readSlots hc Slot.all
  have ho : o = _ := run_bind_of_ok _ _ hresult
  rw [ho]
  refine ⟨congrArg Except.ok ?_, hkept, hobeys⟩
  funext slot
  cases slot <;> rfl

/-- The values that are read are the corrections. -/
theorem shows_readValues (c : Chip) : c.shows readValues = .ok c.corrections.values :=
  (run_readValues (c := { c with failRead := none, failWrite := none })
    ⟨rfl, rfl, fun _ hw => nomatch hw⟩).1

end Calibration

end Transceiver
