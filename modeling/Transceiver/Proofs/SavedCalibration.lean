import Transceiver.Proofs.CalibrationEngines
import Transceiver.Proofs.CalibrationStarts

/-!
# Saved calibration values

Values that have been saved can be loaded again. Loading goes through the control register of a
block, its count register and its load strobe, with the calibration clock of the block on meanwhile;
all slots of a block share these registers, and all blocks share the register of the clocks. Behind
this, loading is an overlay: a slot with a value holds that value afterwards, and a slot without one
holds what it did. The laws of saving and loading are the laws of overlays.
-/

namespace Transceiver

open Procedure Register Chip

/-- Whether the event is an access to one of some registers. -/
def Event.At (registers : List Address) : Event → Prop
  | .read address _ | .write address _ _ => address ∈ registers
  | .note _ | .pause _ => False

instance (registers : List Address) : DecidablePred (Event.At registers)
  | .read address _ | .write address _ _ => inferInstanceAs (Decidable (address ∈ registers))
  | .note _ | .pause _ => inferInstanceAs (Decidable False)

namespace Calibration

/-! ## Overlays -/

namespace Values

/-- The values laid over others. -/
def laidOver (values below : Values) : Values :=
  fun slot => (values slot).or (below slot)

/-- The values of some slots only. -/
def within (values : Values) (slots : List Slot) : Values :=
  fun slot => if slot ∈ slots then values slot else none

/-- Whether there is a value for a slot of the block. -/
def touches (values : Values) (b : Block) : Bool :=
  b.slots.any fun slot => (values slot).isSome

/-- It does not matter in which order three sets of values are laid over each other, as long as each
stays in its place. -/
theorem laidOver_assoc (values middle below : Values) :
    (values.laidOver middle).laidOver below = values.laidOver (middle.laidOver below) := by
  funext slot
  exact Option.or_assoc

theorem laidOver_self (values : Values) : values.laidOver values = values := by
  funext slot
  exact Option.or_self

@[simp] theorem laidOver_empty (values : Values) : values.laidOver empty = values := by
  funext slot
  exact Option.or_none

@[simp] theorem empty_laidOver (values : Values) : empty.laidOver values = values := by
  funext slot
  exact Option.none_or

@[simp] theorem within_nil (values : Values) : values.within [] = empty := by
  funext slot
  simp [within, empty]

/-- Values within all slots are the values. -/
theorem within_all (values : Values) {slots : List Slot} (h : ∀ slot, slot ∈ slots) :
    values.within slots = values := by
  funext slot
  exact if_pos (h slot)

/-- Values within some slots and others are those of the others laid over those of the first. -/
theorem within_append (values : Values) (slots others : List Slot) :
    values.within (slots ++ others) = (values.within others).laidOver (values.within slots) := by
  funext slot
  simp only [laidOver, within, List.mem_append]
  by_cases hslots : slot ∈ slots <;> by_cases hothers : slot ∈ others <;> simp [hslots, hothers]

/-- A slot without a value adds nothing. -/
theorem within_singleton_of_none {values : Values} {slot : Slot} (h : values slot = none) :
    values.within [slot] = empty := by
  funext other
  simp only [within, List.mem_singleton, empty]
  split
  · next heq => rw [heq, h]
  · rfl

/-- Values fit if every one of them is at most 63, which is what six bits can hold. -/
theorem fit_iff {values : Values} :
    values.fit = true ↔ ∀ slot, ∀ value ∈ values slot, value.toNat ≤ 63 := by
  simp only [fit, List.all_eq_true, Option.all_eq_true, decide_eq_true_eq]
  constructor
  · intro h slot value hvalue
    exact h slot slot.mem_all value hvalue
  · intro h slot _ value hvalue
    exact h slot value hvalue

/-- Fitting values laid over fitting values fit. -/
theorem fit_laidOver {values below : Values} (h : values.fit) (hbelow : below.fit) :
    (values.laidOver below).fit := by
  rw [fit_iff] at h hbelow ⊢
  intro slot value hvalue
  rcases Option.or_eq_some_iff.1 hvalue with htop | ⟨-, hbottom⟩
  · exact h slot value htop
  · exact hbelow slot value hbottom

end Values

/-- What engines hold always fits. -/
theorem Corrections.fit_values (held : Corrections) : held.values.fit := by
  rw [Values.fit_iff]
  intro slot value hvalue
  obtain rfl := Option.some.inj hvalue
  have hlt : (held slot.block slot.submodule).toNat < 64 := BitVec.isLt _
  rw [BitVec.toNat_setWidth_of_le (by decide)]
  omega

/-- A correction put into a slot is laid over the others. -/
theorem Corrections.values_set (held : Corrections) (slot : Slot) {value : Byte}
    (hfit : value.toNat ≤ 63) {values : Values} (hvalue : values slot = some value) :
    (held.set slot.block slot.submodule (value.setWidth 6)).values =
      (values.within [slot]).laidOver held.values := by
  have hwidth : (value.setWidth 6).setWidth 8 = value := by
    apply BitVec.eq_of_toNat_eq
    simp only [BitVec.toNat_setWidth]
    omega
  funext other
  simp only [Corrections.values, Corrections.set, Values.laidOver, Values.within,
    List.mem_singleton]
  by_cases hother : other = slot
  · subst hother
    simp [hwidth, hvalue]
  · have hplace : ¬ (slot.block = other.block ∧ slot.submodule = other.submodule) := by
      intro h
      exact hother (Slot.eq_of_place h.1 h.2).symm
    simp [hother, hplace]

/-- The slots of a block are those that belong to it. -/
theorem Block.mem_slots {slot : Slot} {b : Block} : slot ∈ b.slots ↔ slot.block = b := by
  simp [Block.slots, slot.mem_all]

/-- A block is touched if one of its slots has a value. -/
theorem Values.touches_iff {values : Values} {b : Block} :
    values.touches b = true ↔ ∃ slot, slot.block = b ∧ (values slot).isSome := by
  simp [touches, Block.mem_slots]

/-! ## Loading -/

end Calibration

namespace Procedure

open Calibration

/-- Where nothing is refused, the procedure ends well and lays some values over those that the
engines hold. -/
def Lays (values : Values) (p : Procedure Unit) : Prop :=
  ∀ c : Chip, c.Obeys none →
    let o := p.run transport c
    o.result = .ok () ∧ o.state.Obeys none ∧
      o.state.corrections.values = values.laidOver c.corrections.values

/-- To do nothing is to lay no values. -/
theorem lays_pure : (pure () : Procedure Unit).Lays .empty :=
  fun c hc => ⟨rfl, hc, (c.corrections.values.empty_laidOver).symm⟩

/-- What is laid later is on top. -/
theorem Lays.bind {values later : Values} {p q : Procedure Unit} (hp : p.Lays values)
    (hq : q.Lays later) : (p >>= fun _ => q).Lays (later.laidOver values) := by
  intro c hc
  obtain ⟨hfirst, hmid, hvalues⟩ := hp c hc
  obtain ⟨hresult, hobeys, hvalues'⟩ := hq _ hmid
  rw [run_bind_of_ok _ _ hfirst]
  refine ⟨hresult, hobeys, ?_⟩
  rw [hvalues', hvalues, Values.laidOver_assoc]

end Procedure

namespace Calibration

variable {c : Chip} {values : Values}

/-- Loading a slot lays its value. The count is latched into the engine of the block at the address
of the slot, whatever the engine is at. -/
theorem lays_loadSlot {slot : Slot} {value : Byte} (hfit : value.toNat ≤ 63)
    (hvalue : values slot = some value) : (loadSlot slot value).Lays (values.within [slot]) := by
  intro c hc o
  let b := slot.block
  let control := addressing b slot.submodule
  have hidle : b.Idle control := idle_addressing b slot.submodule
  have hlatched := run_latchCount hc hidle hidle (value.setWidth 6)
  have hobeys := hc.latched b control (value.setWidth 6) control
  have heq : loadSlot slot value = (do
      latchCount b control (value.setWidth 6) control
      let _ ← readByte (Dc.value b).address) := by
    simp only [loadSlot, latchCount, LawfulMonad.bind_assoc]
    rfl
  have ho : o = _ := (congrArg (run transport · c) heq).trans (run_bind_of_eq _ _ hlatched)
  rw [ho, run_bind_of_eq _ _ (run_readByte_value hobeys b)]
  refine ⟨rfl, hobeys, ?_⟩
  rw [← Corrections.values_set c.corrections slot hfit hvalue]
  show (c.latched b control (value.setWidth 6) control).corrections.values = _
  rw [corrections_latched, submodule_addressing]

/-- Slots without a value are left out, and the others are laid one after the other. -/
theorem lays_loadSlots (hfit : values.fit) (slots : List Slot) :
    ((slots.filterMap fun slot => (values slot).map fun value => (slot, value)).forM fun entry =>
      loadSlot entry.1 entry.2).Lays (values.within slots) := by
  induction slots with
  | nil =>
    rw [Values.within_nil]
    exact lays_pure
  | cons slot rest ih =>
    rw [← List.singleton_append, Values.within_append]
    cases hvalue : values slot with
    | none =>
      rw [Values.within_singleton_of_none hvalue, Values.laidOver_empty]
      simpa [hvalue] using ih
    | some value =>
      have hslot := lays_loadSlot (Values.fit_iff.1 hfit slot value hvalue) hvalue
      simpa [hvalue] using hslot.bind ih

/-- Switching a clock leaves the engines alone. -/
theorem lays_putClock (b : Block) (on : Bool) : (put (Clock.calibration b) on).Lays .empty := by
  intro c hc o
  have hsite : Site.at (Clock.calibration b).address = .memory := by cases b <;> rfl
  have hstored : (Site.at (Clock.calibration b).address).isStored := by rw [hsite]; rfl
  have ho : o = _ := run_bind_of_eq _ _ (run_readByte_transport hstored hc.reads)
  rw [ho, run_writeByte_memory hc hsite, Values.empty_laidOver]
  exact ⟨rfl, hc.store _ _, rfl⟩

/-- Loading a block lays the values of its slots. The clock that is switched for it changes none of
them. -/
theorem lays_loadBlock (hfit : values.fit) (b : Block) :
    (loadBlock b (values.ofBlock b)).Lays (values.within b.slots) := by
  have hslots := lays_loadSlots hfit b.slots
  cases hentries : values.ofBlock b with
  | nil =>
    -- with no entries nothing is done, as it is by loading them
    rw [show b.slots.filterMap _ = [] from hentries] at hslots
    exact hslots
  | cons first rest =>
    rw [show b.slots.filterMap _ = first :: rest from hentries] at hslots
    have hblock := (lays_putClock b true).bind (hslots.bind (lays_putClock b false))
    rw [Values.empty_laidOver, Values.laidOver_empty] at hblock
    exact hblock

/-- Loading some blocks lays the values of the slots of all of them. -/
theorem lays_loadBlocks (hfit : values.fit) (blocks : List Block) :
    (blocks.forM fun b => loadBlock b (values.ofBlock b)).Lays
      (values.within (blocks.flatMap Block.slots)) := by
  induction blocks with
  | nil =>
    rw [List.flatMap_nil, Values.within_nil]
    exact lays_pure
  | cons b rest ih =>
    rw [List.flatMap_cons, Values.within_append]
    exact (lays_loadBlock hfit b).bind ih

/-- Loading lays the values over those that are held. -/
theorem lays_loadValues (hfit : values.fit) : (loadValues values).Lays values := by
  have hall : values.within (Block.all.flatMap Block.slots) = values := by
    apply Values.within_all
    intro slot
    cases slot <;> decide
  have hblocks := lays_loadBlocks hfit Block.all
  rw [hall] at hblocks
  rw [loadValues, if_pos hfit]
  exact hblocks

/-- A value that does not fit is refused before anything is accessed. -/
theorem run_loadValues_of_not_fit (h : ¬ values.fit) (c : Chip) :
    (loadValues values).run transport c = ⟨.error .invalidArgument, c, []⟩ := by
  rw [loadValues, if_neg h]
  rfl

/-! ## Accesses -/

/-- Blocks share no registers, and the clocks are in none of theirs. -/
theorem Block.eq_of_mem_ports {b b' : Block} {address : Address} (h : address ∈ b.ports)
    (h' : address ∈ b'.ports) : b = b' := by
  have hports : ∀ address ∈ b.ports, address ∈ b'.ports → b = b' := by
    cases b <;> cases b' <;> decide
  exact hports address h h'

/-- The register of the clocks is none of the registers of a block. -/
theorem Block.clockEnable_notMem_ports (b : Block) : clockEnable ∉ b.ports := by
  cases b <;> decide

theorem Block.control_mem_ports (b : Block) : (Dc.load b).address ∈ b.ports := by
  cases b <;> decide

/-- What is loaded for a block are the values of its slots. -/
theorem Values.mem_ofBlock {b : Block} {entry : Slot × Byte} (h : entry ∈ values.ofBlock b) :
    entry.1.block = b ∧ values entry.1 = some entry.2 := by
  obtain ⟨slot, hslot, hentry⟩ := List.mem_filterMap.1 h
  obtain ⟨value, hvalue, rfl⟩ := Option.map_eq_some_iff.1 hentry
  exact ⟨Block.mem_slots.1 hslot, hvalue⟩

/-- A block is touched unless there is nothing to load for it. -/
theorem Values.touches_eq (values : Values) (b : Block) :
    values.touches b = !(values.ofBlock b).isEmpty := by
  rw [Bool.eq_iff_iff, Values.touches_iff, Bool.not_eq_true', List.isEmpty_eq_false_iff_exists_mem]
  constructor
  · rintro ⟨slot, hblock, hvalue⟩
    obtain ⟨value, hvalue⟩ := Option.isSome_iff_exists.1 hvalue
    exact ⟨(slot, value), List.mem_filterMap.2 ⟨slot, Block.mem_slots.2 hblock, by simp [hvalue]⟩⟩
  · rintro ⟨entry, hentry⟩
    obtain ⟨hblock, hvalue⟩ := Values.mem_ofBlock hentry
    exact ⟨entry.1, hblock, hvalue ▸ rfl⟩

/-- A slot is loaded through the registers of its block. -/
theorem emits_loadSlot (slot : Slot) (value : Byte) :
    (loadSlot slot value).Emits (Event.At slot.block.ports) := by
  have hwrite {address : Address} (h : address ∈ slot.block.ports) (value : Byte) :
      (writeByte address value).Emits (Event.At slot.block.ports) :=
    emits_writeByte fun _ => h
  have hcontrol := slot.block.control_mem_ports
  apply (hwrite hcontrol _).bind
  intro _
  apply (hwrite (by simp [Block.ports]) _).bind
  intro _
  apply (hwrite hcontrol _).bind
  intro _
  apply (hwrite hcontrol _).bind
  intro _
  have hread : (readByte (Dc.value slot.block).address).Emits (Event.At slot.block.ports) :=
    emits_readByte fun _ => by simp [Event.At, Block.ports]
  exact hread.bind fun _ => emits_pure ()

theorem emits_loadSlots (values : Values) (b : Block) :
    ((values.ofBlock b).forM fun entry => loadSlot entry.1 entry.2).Emits (Event.At b.ports) := by
  apply emits_forM
  intro entry hentry
  rw [← (Values.mem_ofBlock hentry).1]
  exact emits_loadSlot entry.1 entry.2

/-- Switching a calibration clock accesses the register of the clocks only. -/
theorem emits_putClock (b : Block) (on : Bool) :
    (put (Clock.calibration b) on).Emits (Event.At [clockEnable]) := by
  have haddress : (Clock.calibration b).address ∈ [clockEnable] := by cases b <;> decide
  exact emits_assign (fun _ => haddress) fun _ _ => haddress

/-- Loading a block accesses its registers and the clocks, and these only if there is something to
load. -/
theorem emits_loadBlock (values : Values) (b : Block) :
    (loadBlock b (values.ofBlock b)).Emits fun e =>
      values.touches b ∧ e.At (clockEnable :: b.ports) := by
  have hslots := emits_loadSlots values b
  cases hentries : values.ofBlock b with
  | nil => exact emits_pure ()
  | cons first rest =>
    have htouches : values.touches b := by rw [values.touches_eq, hentries]; rfl
    have hmore {registers : List Address} (h : registers ⊆ clockEnable :: b.ports) (e : Event)
        (he : e.At registers) : values.touches b ∧ e.At (clockEnable :: b.ports) := by
      cases e with
      | read address answer | write address value accepted => exact ⟨htouches, h he⟩
      | note entry | pause microseconds => exact he.elim
    rw [hentries] at hslots
    apply ((emits_putClock b true).mono (hmore (by simp))).bind
    intro _
    apply (hslots.mono (hmore (by simp))).bind
    intro _
    exact (emits_putClock b false).mono (hmore (by simp))

/-- Every access of loading is for a block that has a value, at one of its registers or at the
clocks. -/
theorem emits_loadValues (values : Values) :
    (loadValues values).Emits fun e =>
      ∃ b, values.touches b ∧ e.At (clockEnable :: b.ports) := by
  unfold loadValues
  split
  · apply emits_forM
    intro b _
    exact (emits_loadBlock values b).mono fun e he => ⟨b, he⟩
  · exact emits_fail _

/-! ## Strobes -/

/-- After the events `past`, on registers that were `r₀`, a load strobe may be written only while
the calibration clock of its block is on. -/
def LoadAllowed (r₀ : RegisterFile) (past : List Event) (e : Event) : Prop :=
  ∀ b value, e = .write (Dc.load b).address value true → (Dc.load b).isSet value →
    (r₀.after past).flag (Clock.calibration b) = true

section Strobes

variable {r₀ : RegisterFile} {past : List Event} {b : Block}

/-- While the clock of a block is on, the registers of the block may be accessed in any way, and
the clock stays on. -/
theorem ensures_clocked {α : Type} {p : Procedure α} (hp : p.Emits (Event.At b.ports))
    (hclock : (r₀.after past).flag (Clock.calibration b) = true) :
    p.Ensures (LoadAllowed r₀)
      (fun _ past' => (r₀.after past').flag (Clock.calibration b) = true) past := by
  have hstep {e : Event} (he : e.At b.ports) (past : List Event)
      (hclock : (r₀.after past).flag (Clock.calibration b) = true) :
      (r₀.after (past ++ [e])).flag (Clock.calibration b) = true := by
    rw [RegisterFile.after_append, RegisterFile.after_cons, RegisterFile.after_nil, ← hclock]
    have haddress : (Clock.calibration b).address = clockEnable := by cases b <;> rfl
    cases e with
    | read address answer => rfl
    | note entry | pause microseconds => exact he.elim
    | write address value accepted =>
      cases accepted with
      | false => rfl
      | true =>
        have hne : address ≠ (Clock.calibration b).address := by
          intro heq
          rw [heq, haddress] at he
          exact b.clockEnable_notMem_ports he
        exact congrArg (Clock.calibration b).isSet (RegisterFile.get_set_of_ne _ hne value)
  have hallowed {e : Event} (he : e.At b.ports) {past : List Event}
      (hclock : (r₀.after past).flag (Clock.calibration b) = true) : LoadAllowed r₀ past e := by
    rintro b' value rfl -
    rwa [← Block.eq_of_mem_ports he b'.control_mem_ports]
  induction p generalizing past with
  | done result => exact hclock
  | read address next ih =>
    exact fun answer => ⟨hallowed (hp answer).1 hclock,
      ih answer (hp answer).2 (hstep (hp answer).1 past hclock)⟩
  | write address value next ih =>
    exact fun accepted => ⟨hallowed (hp accepted).1 hclock,
      ih accepted (hp accepted).2 (hstep (hp accepted).1 past hclock)⟩
  | note entry next ih | pause microseconds next ih => exact hp.1.elim

/-- Switching a clock puts no strobe. -/
theorem loadAllowed_clocks {e : Event} (he : e.At [clockEnable]) : LoadAllowed r₀ past e := by
  rintro b value rfl -
  have hne : (Dc.load b).address ≠ clockEnable := by cases b <;> decide
  exact (hne (List.mem_singleton.1 he)).elim

/-- After a clock has been switched on it is on. -/
theorem ensures_putClock (b : Block) :
    (put (Clock.calibration b) true).Ensures (LoadAllowed r₀) (fun result past' =>
      ∀ a, result = .ok a → (r₀.after past').flag (Clock.calibration b) = true) past := by
  have haddress : (Clock.calibration b).address ∈ [clockEnable] := by cases b <;> decide
  apply ensures_readByte_bind
  · exact fun _ => loadAllowed_clocks haddress
  · rintro _ ⟨⟩
  · intro clocks
    apply ensures_writeByte
    · exact fun _ => loadAllowed_clocks haddress
    · rintro _ ⟨⟩
    · intro _ _
      rw [RegisterFile.after_append, RegisterFile.after_cons, RegisterFile.after_nil]
      show (Clock.calibration b).isSet ((RegisterFile.set _ _ _).get _) = true
      rw [RegisterFile.get_set_self]
      exact BitField.isSet_put _ _ _

/-- A block is loaded with its clock on: the strobes lie between switching it on and switching it
off. -/
theorem ensures_loadBlock (values : Values) (b : Block) (past : List Event) :
    (loadBlock b (values.ofBlock b)).Ensures (LoadAllowed r₀) (fun _ _ => True) past := by
  have hslots := emits_loadSlots values b
  cases hentries : values.ofBlock b with
  | nil => trivial
  | cons first rest =>
    rw [hentries] at hslots
    apply (ensures_putClock b).bind
    · intro _ past' hclock
      apply (ensures_clocked hslots (hclock () rfl)).bind
      · intro _ past'' _
        exact ((emits_putClock b false).ensures fun _ _ => loadAllowed_clocks).mono
          fun _ _ _ => trivial
      · exact fun _ _ _ => trivial
    · exact fun _ _ _ => trivial

theorem ensures_loadBlocks (values : Values) (blocks : List Block) (past : List Event) :
    (blocks.forM fun b => loadBlock b (values.ofBlock b)).Ensures (LoadAllowed r₀)
      (fun _ _ => True) past := by
  induction blocks generalizing past with
  | nil => trivial
  | cons b rest ih =>
    exact (ensures_loadBlock values b past).bind (fun _ past' _ => ih past') fun _ _ _ => trivial

/-- All strobes of loading are made with the clock of their block on. -/
theorem ensures_loadValues (r₀ : RegisterFile) (values : Values) :
    (loadValues values).Ensures (LoadAllowed r₀) (fun _ _ => True) [] := by
  unfold loadValues
  split
  · exact ensures_loadBlocks values Block.all []
  · trivial

end Strobes

/-! ## Clocks -/

theorem Block.clock_address (b : Block) : (Clock.calibration b).address = clockEnable := by
  cases b <;> rfl

/-- Every block has a calibration clock of its own. -/
theorem Block.clocks_apart {b b' : Block} (h : b ≠ b') :
    (Clock.calibration b).Apart (Clock.calibration b') := by
  revert h
  cases b <;> cases b' <;> decide

/-- The calibration clocks of some blocks are off, and every other bit of their register is as it
was. -/
structure ClocksOff (blocks : List Block) (r r' : RegisterFile) : Prop where
  off : ∀ b ∈ blocks, r'.flag (Clock.calibration b) = false
  others : ∀ f : Flag, f.address = clockEnable → (∀ b ∈ blocks, f.Apart (Clock.calibration b)) →
    r'.flag f = r.flag f

/-- What is loaded later switches off clocks of its own blocks only, so the clocks of the earlier
ones stay off. -/
theorem ClocksOff.append {blocks others : List Block} {r r' r'' : RegisterFile}
    (h : ClocksOff blocks r r') (h' : ClocksOff others r' r'') :
    ClocksOff (blocks ++ others) r r'' where
  off b hb := by
    by_cases hothers : b ∈ others
    · exact h'.off b hothers
    · have hkept := h'.others (Clock.calibration b) b.clock_address fun b' hb' =>
        Block.clocks_apart fun heq => hothers (heq ▸ hb')
      rw [hkept]
      exact h.off b ((List.mem_append.1 hb).resolve_right hothers)
  others f hf hapart := by
    rw [List.forall_mem_append] at hapart
    rw [h'.others f hf hapart.2, h.others f hf hapart.1]

/-- After a block has been loaded its clock is off. If there is nothing to load for it, its clock is
left alone. -/
theorem wp_loadBlock (values : Values) (b : Block) (r : RegisterFile) :
    (loadBlock b (values.ofBlock b)).wp none (fun result r' => ∀ a, result = .ok a →
      ClocksOff ([b].filter values.touches) r r') r := by
  have hstored : (Site.at (Clock.calibration b).address).isStored := by cases b <;> rfl
  have hslots := emits_loadSlots values b
  have htouches := values.touches_eq b
  cases hentries : values.ofBlock b with
  | nil =>
    intro _ _
    rw [hentries] at htouches
    simp only [List.filter_cons, htouches]
    exact ⟨by simp, fun _ _ _ => rfl⟩
  | cons first rest =>
    rw [hentries] at hslots htouches
    have hblock : [b].filter values.touches = [b] := by simp [htouches]
    have hloaded (r : RegisterFile) :
        ((first :: rest).forM fun entry => loadSlot entry.1 entry.2).wp none (fun result r' =>
          ∀ a, result = .ok a → r'.get clockEnable = r.get clockEnable) r := by
      have hwrites := hslots.writesOnly (W := fun address _ => address ∈ b.ports) fun _ _ _ h => h
      exact wp_mono (wp_of_writesOnly hwrites r) fun _ _ hkept _ _ =>
        hkept clockEnable fun _ => b.clockEnable_notMem_ports
    rw [loadBlock, wp_bind, wp_put hstored, between_ok]
    apply wp_bind_of_ok (hloaded _)
    intro _ r' hkept
    rw [wp_put hstored, hblock]
    intro _ _
    constructor
    · intro b' hb'
      obtain rfl := List.mem_singleton.1 hb'
      exact RegisterFile.flag_put_self _ _ _
    · intro f hf hapart
      have hb := hapart b (List.mem_singleton_self b)
      have hflag : r'.flag f = (r.put (Clock.calibration b) true).flag f := by
        rw [RegisterFile.flag, RegisterFile.flag, hf, hkept]
      rw [RegisterFile.flag_put_of_apart hb, hflag, RegisterFile.flag_put_of_apart hb]

/-- After some blocks have been loaded the clocks of those with a value are off. -/
theorem wp_loadBlocks (values : Values) (blocks : List Block) (r : RegisterFile) :
    (blocks.forM fun b => loadBlock b (values.ofBlock b)).wp none (fun result r' =>
      ∀ a, result = .ok a → ClocksOff (blocks.filter values.touches) r r') r := by
  induction blocks generalizing r with
  | nil => exact fun _ _ => ⟨by simp, fun _ _ _ => rfl⟩
  | cons b rest ih =>
    apply wp_bind_of_ok (wp_loadBlock values b r)
    intro _ r' hfirst
    apply wp_mono (ih r')
    intro _ r'' hrest a ha
    have hboth := hfirst.append (hrest a ha)
    rwa [← List.filter_append] at hboth

/-! ## The laws of saving and loading -/

/-- What loading values comes to. -/
structure Loaded (c : Chip) (values : Values) (o : Outcome Chip Unit) : Prop where
  result : o.result = .ok ()
  /-- A slot with a value shows it, and a slot without one shows what it did. -/
  shown : ∃ before, c.shows readValues = .ok before ∧
    o.state.shows readValues = .ok fun slot => (values slot).or (before slot)
  /-- A block without any value is not accessed. -/
  untouched : ∀ b, (∀ slot, slot.block = b → values slot = none) →
    ∀ e ∈ o.events, ¬ e.At b.ports
  /-- At every load strobe the calibration clock of the block is on. -/
  strobes : ∀ past e later, o.events = past ++ e :: later → LoadAllowed c.registers past e
  /-- The calibration clocks of the blocks with a value are off in the end. -/
  off : ∀ slot, (values slot).isSome →
    o.state.registers.flag (Clock.calibration slot.block) = false
  /-- Every other bit of the clocks' register is as it was. -/
  others : ∀ f : Flag, f.address = clockEnable →
    (∀ slot, (values slot).isSome → f.Apart (Clock.calibration slot.block)) →
    o.state.registers.flag f = c.registers.flag f

/-- Fitting values are loaded as stated, on any chip that refuses nothing. -/
theorem loaded_of_fit (hfit : values.fit) (hc : c.Obeys none) :
    Loaded c values ((loadValues values).run transport c) := by
  obtain ⟨hresult, -, hvalues⟩ := lays_loadValues hfit c hc
  have hclocks : ClocksOff (Block.all.filter values.touches) c.registers
      ((loadValues values).run transport c).state.registers := by
    have hwp : (loadValues values).wp none (fun result r' => ∀ a, result = .ok a →
        ClocksOff (Block.all.filter values.touches) c.registers r') c.registers := by
      rw [loadValues, if_pos hfit]
      exact wp_loadBlocks values Block.all c.registers
    exact (wp_run hc hwp).2 () hresult
  have hmem (slot : Slot) (hslot : (values slot).isSome) :
      slot.block ∈ Block.all.filter values.touches := by
    have hall : slot.block ∈ Block.all := by cases slot <;> decide
    exact List.mem_filter.2 ⟨hall, Values.touches_iff.2 ⟨slot, rfl, hslot⟩⟩
  refine ⟨hresult, ⟨_, shows_readValues c, ?_⟩, ?_, ?_, fun slot hslot => ?_, fun f hf hapart => ?_⟩
  · rw [shows_readValues, hvalues]
    rfl
  · intro b hb e he hat
    obtain ⟨b', htouches, hat'⟩ := (emits_loadValues values).run transport c e he
    -- the event is at the clocks or at another block
    obtain ⟨slot, rfl, hslot⟩ := Values.touches_iff.1 htouches
    have hne : b ≠ slot.block := by
      rintro rfl
      simp [hb slot rfl] at hslot
    cases e with
    | read address answer | write address value accepted =>
      rcases List.mem_cons.1 hat' with rfl | hat'
      · exact b.clockEnable_notMem_ports hat
      · exact hne (Block.eq_of_mem_ports hat hat')
    | note entry | pause microseconds => exact hat
  · intro past e later heq
    exact ((ensures_loadValues c.registers values).run transport c).2 past e later heq
  · exact hclocks.off _ (hmem slot hslot)
  · apply hclocks.others f hf
    intro b hb
    obtain ⟨slot, rfl, hslot⟩ := Values.touches_iff.1 (List.mem_filter.1 hb).2
    exact hapart slot hslot

/-- Saved values round-trip. Values of which one does not fit are refused without an access to the
bus. All others are loaded, however the chip is and whatever calibrations are under way: the values
that are read afterwards are those that have been loaded, laid over those that were read before. So
loading what has been read changes no value, and loading twice is loading the second values laid
over the first. -/
theorem saved_values_round_trip (c : Chip) (hread : c.failRead = none)
    (hwrite : c.failWrite = none) :
    (∀ values : Values, (∃ slot, ∃ value ∈ values slot, 63 < value.toNat) →
      (loadValues values).run transport c = ⟨.error .invalidArgument, c, []⟩) ∧
    (∀ values : Values, (∀ slot, ∀ value ∈ values slot, value.toNat ≤ 63) →
      Loaded c values ((loadValues values).run transport c)) ∧
    (((readValues >>= loadValues).run transport c).result = .ok () ∧
      ((readValues >>= loadValues).run transport c).state.shows readValues =
        c.shows readValues) ∧
    ∀ first second : Values, (∀ slot, ∀ value ∈ first slot, value.toNat ≤ 63) →
      (∀ slot, ∀ value ∈ second slot, value.toNat ≤ 63) →
      let twice := (loadValues first >>= fun _ => loadValues second).run transport c
      let once := (loadValues fun slot => (second slot).or (first slot)).run transport c
      twice.result = .ok () ∧ once.result = .ok () ∧
        twice.state.shows readValues = once.state.shows readValues := by
  have hc : c.Obeys none := ⟨hread, hwrite, fun _ hw => nomatch hw⟩
  refine ⟨?_, ?_, ?_, ?_⟩
  · rintro values ⟨slot, value, hvalue, hgreat⟩
    apply run_loadValues_of_not_fit
    intro hfit
    have := Values.fit_iff.1 hfit slot value hvalue
    omega
  · intro values hfits
    exact loaded_of_fit (Values.fit_iff.2 hfits) hc
  · obtain ⟨hsaved, hkept, hobeys⟩ := run_readValues hc
    obtain ⟨hresult, -, hvalues⟩ := lays_loadValues c.corrections.fit_values _ hobeys
    rw [run_bind_of_ok _ _ hsaved]
    rw [shows_readValues, shows_readValues, hvalues, hkept, Values.laidOver_self]
    exact ⟨hresult, rfl⟩
  · intro first second hfirst hsecond twice once
    have hfit := Values.fit_iff.2 hfirst
    have hfit' := Values.fit_iff.2 hsecond
    obtain ⟨htwice, -, hvalues⟩ := (lays_loadValues hfit).bind (lays_loadValues hfit') c hc
    obtain ⟨honce, -, hvalues'⟩ := lays_loadValues (Values.fit_laidOver hfit' hfit) c hc
    refine ⟨htwice, honce, ?_⟩
    rw [shows_readValues, shows_readValues]
    exact congrArg Except.ok (hvalues.trans hvalues'.symm)

/-- While the transmit filter is being calibrated, one of its values is loaded. -/
theorem saved_values_round_trip_pending :
    let c := { initial with busyPolls := none : Chip }.start .txLpf 1
    let values : Values := fun slot => if slot = .txLpfQ then some 40 else none
    let o := (loadValues values).run transport c
    o.result = .ok () ∧
      o.state.shows readValues = .ok fun slot => some (if slot = .txLpfQ then 40 else 17) := by
  intro c values o
  obtain ⟨-, hloads, -⟩ := saved_values_round_trip c rfl rfl
  obtain ⟨hresult, ⟨before, hbefore, hafter⟩, -⟩ := hloads values (by
    intro slot
    cases slot <;> decide)
  refine ⟨hresult, hafter.trans (congrArg Except.ok ?_)⟩
  obtain rfl := Except.ok.inj ((shows_readValues c).symm.trans hbefore)
  funext slot
  cases slot <;> rfl

end Calibration

end Transceiver
