import Transceiver.Proofs.CalibrationAttempts

/-!
# A calibration starts in the right set-up

An engine may be started only while the chip is set up for its block: its clock runs, its
comparators are powered, the front end is cut off and at the gains of the attempt, and the stages of
RXVGA2 are routed to the submodule that is addressed. In an attempt the submodules are started one
after the other, and none is left out.

`Ready` says this of a history. It holds wherever a calibration starts an engine, whatever it has
been answered so far. Two of the submodules of RXVGA2 rely on the routing of the one before, so
between two submodules the invariant is `Due`, which keeps the routing of the last one started.
-/

namespace Transceiver

/-- The submodules started so far, after an event: an accepted write to the control register with
the start bit starts the submodule that it addresses, and a further attempt starts over. -/
def Event.startStep (b : Calibration.Block) (started : List Nat) : Event → List Nat
  | .write address value true =>
    if address = (Register.Dc.start b).address ∧ (Register.Dc.start b).isSet value then
      started ++ [((Register.Dc.submodule b).get value).toNat]
    else started
  | .note (.retrying _ _) => []
  | .write _ _ false | .read _ _ | .note _ | .pause _ => started

namespace Calibration

open Procedure Register Chip

/-! ## The set-up -/

/-- The comparators of a block are powered; for the transmit filter the DAC is quiet too. -/
def ComparatorsOn : Block → RegisterFile → Prop
  | .lpfTuning, _ => True
  | .txLpf, r =>
    Tx.comparatorOff.isSet (r.get txLpfComparator) = false ∧ Tx.dacQuiet.isSet (r.get txDac) = true
  | .rxLpf, r => Rx.comparatorOff.isSet (r.get rxLpfComparator) = false
  | .rxvga2, r => Rx.vga2ComparatorsOff.get (r.get rxvga2Comparator) = 0

/-- The front end is cut off from the pads and terminated, with the LNA at full gain. -/
structure Isolated (r : RegisterFile) : Prop where
  input : Rx.padConnect.isSet (r.get rxInput) = false
  termination : Rx.terminate.isSet (r.get Register.rxTermination) = true
  lnaGain : Amplifier.LnaGain.ofBits (Rx.lnaGain.get (r.get lnaControl)) = .max

/-- What the set-up of a block does, but for the gains. -/
structure Powered (b : Block) (r : RegisterFile) : Prop where
  clock : (Clock.calibration b).isSet (r.get clockEnable) = true
  comparators : ComparatorsOn b r
  isolated : b.usesFrontEnd → Isolated r

/-- The registers show the set-up of a block for an attempt. -/
structure Prepared (b : Block) (attempt : Nat) (r : RegisterFile) : Prop where
  powered : Powered b r
  gains : b.usesFrontEnd → GainsAt attempt r

/-- The direct control and the stage gains of RXVGA2 that suit a submodule. -/
def routing : (submodule : Nat) → Bool × Byte
  | 0 => (false, 0x01)
  | 1 | 2 => (true, 0x06)
  | _ => (true, 0x60)

/-- The stages of RXVGA2 are routed to a submodule. -/
structure Routed (submodule : Nat) (r : RegisterFile) : Prop where
  decode : Rx.vga2Decode.isSet (r.get rxvga2Control) = (routing submodule).1
  stages : r.get rxvga2Stages = (routing submodule).2

/-- The submodules of a block that have been started in the present attempt, in order. -/
def started (b : Block) (events : List Event) : List Nat :=
  events.foldl (Event.startStep b) []

/-- After the events `past`, on registers that were `r₀`, a submodule may be started in an attempt
with some number. -/
structure Ready (b : Block) (r₀ : RegisterFile) (past : List Event) (attempt submodule : Nat) :
    Prop where
  count : retryCount past = attempt
  prepared : Prepared b attempt (r₀.after past)
  routed : b = .rxvga2 → Routed submodule (r₀.after past)
  inRange : submodule < b.submodules
  /-- None is left out. -/
  complete : ∀ s < submodule, s ∈ started b past
  /-- None comes before its turn. -/
  ordered : ∀ s ∈ started b past, s ≤ submodule

/-- An event is allowed if it is no start, or the start of a submodule that is ready. -/
def StartAllowed (b : Block) (r₀ : RegisterFile) (past : List Event) (e : Event) : Prop :=
  ∀ value, e = .write (Dc.start b).address value true → (Dc.start b).isSet value →
    Ready b r₀ past (retryCount past) ((Dc.submodule b).get value).toNat

/-! ## What the set-up rests on -/

section Congruence

variable {b : Block} {attempt submodule : Nat} {r r' : RegisterFile}

theorem ComparatorsOn.congr (h : ∀ a ∈ comparatorRegisters, r'.get a = r.get a)
    (hr : ComparatorsOn b r) : ComparatorsOn b r' := by
  simp only [comparatorRegisters, List.forall_mem_cons] at h
  obtain ⟨hdac, htx, hrx, hvga2, -⟩ := h
  cases b with
  | lpfTuning => trivial
  | txLpf | rxLpf | rxvga2 => simpa only [ComparatorsOn, htx, hdac, hrx, hvga2] using hr

theorem Powered.congr (h : ∀ a ∈ poweredRegisters, r'.get a = r.get a) (hr : Powered b r) :
    Powered b r' := by
  simp only [poweredRegisters, List.forall_mem_cons, List.forall_mem_append] at h
  obtain ⟨hclock, hcomparators, hinput, htermination, hlna, -⟩ := h
  refine ⟨hclock ▸ hr.clock, hr.comparators.congr hcomparators, fun hb => ?_⟩
  have hisolated := hr.isolated hb
  exact ⟨hinput ▸ hisolated.input, htermination ▸ hisolated.termination,
    hlna ▸ hisolated.lnaGain⟩

theorem GainsAt.congr (h : ∀ a ∈ gainRegisters, r'.get a = r.get a) (hr : GainsAt attempt r) :
    GainsAt attempt r' := by
  simp only [gainRegisters, List.forall_mem_cons] at h
  exact ⟨h.1.trans hr.rxvga1, h.2.1.trans hr.rxvga2⟩

/-- Whether the chip is prepared shows in the registers of the set-up. -/
theorem Prepared.congr (h : ∀ a ∈ poweredRegisters ++ gainRegisters, r'.get a = r.get a)
    (hr : Prepared b attempt r) : Prepared b attempt r' where
  powered := hr.powered.congr fun a ha => h a (List.mem_append_left _ ha)
  gains hb := (hr.gains hb).congr fun a ha => h a (List.mem_append_right _ ha)

/-- And its routing in those of the routing. -/
theorem Routed.congr (h : ∀ a ∈ routingRegisters, r'.get a = r.get a) (hr : Routed submodule r) :
    Routed submodule r' := by
  simp only [routingRegisters, List.forall_mem_cons] at h
  exact ⟨h.1 ▸ hr.decode, h.2.1 ▸ hr.stages⟩

end Congruence

/-! ## Histories with the same set-up -/

/-- The control registers of the blocks are no part of the set-up. -/
theorem control_notMem_setUpRegisters (b : Block) : (Dc.start b).address ∉ setUpRegisters := by
  cases b <;> decide

/-- Two histories show the same set-up, in the same attempt. -/
structure SameSetUp (r₀ : RegisterFile) (past past' : List Event) : Prop where
  count : retryCount past' = retryCount past
  registers : ∀ a ∈ setUpRegisters, (r₀.after past').get a = (r₀.after past).get a

/-- An event that is no write to some registers and does not begin a further attempt. -/
def Avoids (reserved : List Address) : Event → Prop
  | .write address _ _ => address ∉ reserved
  | .note (.retrying _ _) => False
  | .read _ _ | .note _ | .pause _ => True

/-- An event that starts nothing and leaves the set-up as it is. -/
abbrev Spares (b : Block) : Event → Prop :=
  Avoids ((Dc.start b).address :: setUpRegisters)

@[simp] theorem started_append_singleton (b : Block) (events : List Event) (e : Event) :
    started b (events ++ [e]) = e.startStep b (started b events) :=
  List.foldl_append

section SameSetUp

variable {b : Block} {r₀ : RegisterFile} {past past' past'' : List Event} {attempt submodule : Nat}

theorem SameSetUp.trans (h : SameSetUp r₀ past past') (h' : SameSetUp r₀ past' past'') :
    SameSetUp r₀ past past'' :=
  ⟨h'.count.trans h.count, fun a ha => (h'.registers a ha).trans (h.registers a ha)⟩

/-- A chip with the same set-up as one that is prepared is prepared. -/
theorem SameSetUp.prepared (h : SameSetUp r₀ past past')
    (hp : Prepared b attempt (r₀.after past)) : Prepared b attempt (r₀.after past') :=
  hp.congr fun a ha => h.registers a (List.mem_append_left _ ha)

theorem SameSetUp.routed (h : SameSetUp r₀ past past') (hp : Routed submodule (r₀.after past)) :
    Routed submodule (r₀.after past') :=
  hp.congr fun a ha => h.registers a (List.mem_append_right _ ha)

/-- Other registers may be written. -/
theorem sameSetUp_write {address : Address} (h : address ∉ setUpRegisters) (value : Byte)
    (accepted : Bool) : SameSetUp r₀ past (past ++ [.write address value accepted]) := by
  refine ⟨by simp [retryCount, Event.isRetry], fun a ha => ?_⟩
  have hne : address ≠ a := by
    rintro rfl
    exact h ha
  cases accepted with
  | false => simp [RegisterFile.step]
  | true => simp [RegisterFile.step, RegisterFile.get_set_of_ne _ hne]

/-- An event that avoids registers begins no further attempt. -/
theorem Avoids.isRetry {reserved : List Address} {e : Event} (h : Avoids reserved e) :
    e.isRetry = false := by
  cases e with
  | note entry =>
    cases entry with
    | retrying stage gain => exact h.elim
    | _ => rfl
  | read _ _ | write _ _ _ | pause _ => rfl

/-- What avoids the control register of a block starts none of its submodules. -/
theorem Avoids.startStep {reserved : List Address} {e : Event} (h : Avoids reserved e)
    (hcontrol : (Dc.start b).address ∈ reserved) (before : List Nat) :
    e.startStep b before = before := by
  cases e with
  | note entry =>
    cases entry with
    | retrying stage gain => exact h.elim
    | _ => rfl
  | write address value accepted =>
    cases accepted with
    | false => rfl
    | true =>
      refine if_neg fun hstart => ?_
      exact h (hstart.1 ▸ hcontrol)
  | read _ _ | pause _ => rfl

/-- Events that avoid the control register start no submodule. -/
theorem started_append (past : List Event) {reserved : List Address} {new : List Event}
    (h : ∀ e ∈ new, Avoids reserved e) (hcontrol : (Dc.start b).address ∈ reserved) :
    started b (past ++ new) = started b past := by
  induction new generalizing past with
  | nil => rw [List.append_nil]
  | cons e new ih =>
    obtain ⟨he, hnew⟩ := List.forall_mem_cons.1 h
    rw [List.append_cons, ih _ hnew, started_append_singleton, he.startStep hcontrol]

/-- Events that spare the set-up leave it the same. -/
theorem Avoids.sameSetUp {e : Event} (h : Spares b e) : SameSetUp r₀ past (past ++ [e]) := by
  have hattempt : retryCount (past ++ [e]) = retryCount past := by
    simp [retryCount, h.isRetry]
  cases e with
  | write address value accepted =>
    exact sameSetUp_write (List.not_mem_of_not_mem_cons h) value accepted
  | read _ _ | note _ | pause _ => exact ⟨hattempt, by simp [RegisterFile.step]⟩

/-- A history that goes on by such events shows the same. -/
theorem sameSetUp_append {new : List Event} (h : ∀ e ∈ new, Spares b e) :
    SameSetUp r₀ past (past ++ new) := by
  induction new generalizing past with
  | nil => exact ⟨by simp, by simp⟩
  | cons e new ih =>
    obtain ⟨he, hnew⟩ := List.forall_mem_cons.1 h
    rw [List.append_cons]
    exact he.sameSetUp.trans (ih hnew)

end SameSetUp

/-! ## Procedures that start only what is ready -/

section Leads

variable {α β : Type} {b : Block} {r₀ : RegisterFile} {past : List Event}

/-- Entered after the events `past`, the procedure starts only what is ready, and what it returns
satisfies `Q`. -/
def Leads (b : Block) (r₀ : RegisterFile) (past : List Event) (p : Procedure α)
    (Q : α → List Event → Prop) : Prop :=
  p.Ensures (StartAllowed b r₀) (fun result past' => ∀ a, result = .ok a → Q a past') past

theorem leads_pure {a : α} {Q : α → List Event → Prop} (h : Q a past) :
    Leads b r₀ past (pure a) Q := by
  rintro _ ⟨⟩
  exact h

theorem leads_fail {fault : Fault} {Q : α → List Event → Prop} :
    Leads b r₀ past (fail fault) Q := by
  rintro _ ⟨⟩

/-- What a procedure leads to may be weakened. -/
theorem Leads.mono {p : Procedure α} {Q Q' : α → List Event → Prop} (h : Leads b r₀ past p Q)
    (hQ : ∀ a past', Q a past' → Q' a past') : Leads b r₀ past p Q' :=
  Ensures.mono h fun _ past' hok a ha => hQ a past' (hok a ha)

/-- A sequence leads on from whatever its first part leads to. -/
theorem Leads.bind {p : Procedure α} {f : α → Procedure β} {Q : α → List Event → Prop}
    {R : β → List Event → Prop} (hp : Leads b r₀ past p Q)
    (hf : ∀ a past', Q a past' → Leads b r₀ past' (f a) R) : Leads b r₀ past (p >>= f) R := by
  refine Ensures.bind hp (fun a past' hok => hf a past' (hok a rfl)) fun fault past' _ => ?_
  rintro _ ⟨⟩

/-- An event that spares the set-up is no start, so nothing is asked of it. -/
theorem Avoids.startAllowed {e : Event} (h : Spares b e) : StartAllowed b r₀ past e := by
  rintro value rfl -
  exact absurd List.mem_cons_self h

/-- What spares the set-up goes on without starting anything. -/
theorem leads_of_emits {p : Procedure α} (h : p.Emits (Spares b)) :
    Leads b r₀ past p fun _ past' => ∃ new, past' = past ++ new ∧ ∀ e ∈ new, Spares b e :=
  (h.ensures fun _ _ he => he.startAllowed).mono fun _ _ hnew _ _ => hnew

/-- A write to any other register than the control register is no start. -/
theorem leads_writeByte {address : Address} (hne : address ≠ (Dc.start b).address) (value : Byte) :
    Leads b r₀ past (writeByte address value) fun _ past' =>
      past' = past ++ [.write address value true] := by
  have hallowed (accepted : Bool) :
      StartAllowed b r₀ past (.write address value accepted) := by
    rintro _ heq -
    exact (hne (Event.write.inj heq).1).elim
  refine ensures_writeByte hallowed ?_ ?_
  · rintro _ ⟨⟩
  · exact fun _ _ => rfl

theorem leads_readByte (address : Address) :
    Leads b r₀ past (readByte address) fun value past' =>
      past' = past ++ [.read address (some value)] := by
  refine ensures_readByte (fun _ => Avoids.startAllowed trivial) ?_ ?_
  · rintro _ ⟨⟩
  · rintro value _ ⟨⟩
    rfl

end Leads

/-! ## Setting up -/

section SettingUp

variable {b : Block} {r₀ r : RegisterFile} {past : List Event} {attempt : Nat} {begun : List Nat}

/-- What a history shows: the registers after it, the number of the attempt, and the submodules
started in that. -/
structure Shows (b : Block) (r₀ : RegisterFile) (past : List Event) (r : RegisterFile)
    (attempt : Nat) (begun : List Nat) : Prop where
  registers : r₀.after past = r
  count : retryCount past = attempt
  started : started b past = begun

/-- A write shows in the registers. -/
theorem Shows.writeByte {address : Address} (h : Shows b r₀ past r attempt begun)
    (hne : address ≠ (Dc.start b).address) (value : Byte) :
    Leads b r₀ past (writeByte address value) fun _ past' =>
      Shows b r₀ past' (r.set address value) attempt begun := by
  refine (leads_writeByte hne value).mono fun _ _ => ?_
  rintro rfl
  refine ⟨?_, by simpa [retryCount, Event.isRetry] using h.count, ?_⟩
  · simp [RegisterFile.step, h.registers]
  · simpa [Event.startStep, hne] using h.started

theorem Shows.readByte (h : Shows b r₀ past r attempt begun) (address : Address) :
    Leads b r₀ past (readByte address) fun _ past' => Shows b r₀ past' r attempt begun := by
  refine (leads_readByte address).mono fun value _ => ?_
  rintro rfl
  refine ⟨?_, by simpa [retryCount, Event.isRetry] using h.count, ?_⟩
  · simp [RegisterFile.step, h.registers]
  · simpa [Event.startStep] using h.started

/-- So does a change of what has been read. -/
theorem Shows.modify {address : Address} (h : Shows b r₀ past r attempt begun)
    (hne : address ≠ (Dc.start b).address) (change : Byte → Byte) :
    Leads b r₀ past (modify address change) fun _ past' =>
      ∃ old, Shows b r₀ past' (r.set address (change old)) attempt begun :=
  (h.readByte address).bind fun old _ h' => (h'.writeByte hne _).mono fun _ _ h'' => ⟨old, h''⟩

/-- Setting a gain in range stores its code. -/
theorem Shows.setDb (h : Shows b r₀ past r attempt begun) {stage : DbStage}
    (hstage : stage = .rxvga1 ∨ stage = .rxvga2) (hne : stage.address ≠ (Dc.start b).address)
    {gain : Int} (hgain : stage.clamp gain = gain) :
    Leads b r₀ past (Gain.setDb stage gain) fun _ past' =>
      Shows b r₀ past' (r.set stage.address (stage.encode gain 0)) attempt begun := by
  rw [setDb_eq_writeByte hstage hgain]
  exact (h.writeByte hne _).bind fun _ _ h' => leads_pure h'

/-- A flag that has been put in its register shows there. -/
theorem isSet_set_put (flag : Flag) (r : RegisterFile) (old : Byte) (on : Bool) :
    flag.isSet ((r.set flag.address (flag.put old on)).get flag.address) = on := by
  simp

/-- A field that has been set shows its value. -/
theorem get_set_assign {w : Nat} (field : BitField w) (r : RegisterFile) (old : Byte)
    (value : BitVec w) :
    field.get ((r.set field.address (field.set old value)).get field.address) = value := by
  simp

/-- Powering the comparators of a block leaves them on and the clocks as they are. -/
theorem leads_powerComparators (h : Shows b r₀ past r attempt begun) :
    Leads b r₀ past (powerComparators b) fun _ past' => ∃ r', Shows b r₀ past' r' attempt begun ∧
      ComparatorsOn b r' ∧ r'.get clockEnable = r.get clockEnable := by
  cases b with
  | lpfTuning => exact leads_pure ⟨r, h, trivial, rfl⟩
  | txLpf =>
    refine (h.modify (by decide) _).bind fun _ _ ⟨old₁, h₁⟩ => ?_
    refine (h₁.modify (by decide) _).mono fun _ _ ⟨old₂, h₂⟩ => ⟨_, h₂, ⟨?_, ?_⟩, ?_⟩
    · exact isSet_set_put Tx.comparatorOff _ old₂ false
    · rw [RegisterFile.get_set_of_ne _ (by decide)]
      exact isSet_set_put Tx.dacQuiet _ old₁ true
    · rw [RegisterFile.get_set_of_ne _ (by decide), RegisterFile.get_set_of_ne _ (by decide)]
  | rxLpf =>
    refine (h.modify (by decide) _).mono fun _ _ ⟨old, h'⟩ => ⟨_, h', ?_, ?_⟩
    · exact isSet_set_put Rx.comparatorOff _ old false
    · exact RegisterFile.get_set_of_ne _ (by decide) _
  | rxvga2 =>
    refine (h.modify (by decide) _).mono fun _ _ ⟨old, h'⟩ => ⟨_, h', ?_, ?_⟩
    · exact get_set_assign Rx.vga2ComparatorsOff _ old 0
    · exact RegisterFile.get_set_of_ne _ (by decide) _

/-- With the clock and the comparators on, isolating the front end completes the set-up. -/
theorem leads_isolateFrontEnd (h : Shows b r₀ past r attempt begun) (found : FrontEnd)
    (hclock : (Clock.calibration b).isSet (r.get clockEnable) = true) (hon : ComparatorsOn b r) :
    Leads b r₀ past (isolateFrontEnd found) fun _ past' => ∃ r', Shows b r₀ past' r' attempt begun ∧
      Prepared b 0 r' := by
  have hne (address : Address) (haddress : address ∈ poweredRegisters ++ gainRegisters) :
      address ≠ (Dc.start b).address := by
    rintro rfl
    exact control_notMem_setUpRegisters b (List.mem_append_left _ haddress)
  refine (h.writeByte (hne _ (by decide)) _).bind fun _ _ h₁ => ?_
  refine (h₁.writeByte (hne _ (by decide)) _).bind fun _ _ h₂ => ?_
  refine (h₂.modify (hne _ (by decide)) _).bind fun _ _ ⟨old, h₃⟩ => ?_
  refine (h₃.setDb (.inl rfl) (hne _ (by decide)) (by decide)).bind fun _ _ h₄ => ?_
  refine (h₄.setDb (.inr rfl) (hne _ (by decide)) (by decide)).bind fun _ _ h₅ => ?_
  -- five writes to five registers: each one is looked up through those after it
  refine leads_pure ⟨_, h₅, ⟨?_, ?_, fun _ => ⟨?_, ?_, ?_⟩⟩, fun _ => ⟨?_, ?_⟩⟩
  · simpa (disch := decide) only [RegisterFile.get_set_of_ne] using hclock
  · refine hon.congr fun a ha => ?_
    have hout {address : Address} (haddress : address ∉ comparatorRegisters) (r : RegisterFile)
        (value : Byte) : (r.set address value).get a = r.get a := by
      refine RegisterFile.get_set_of_ne r ?_ value
      rintro rfl
      exact haddress ha
    rw [hout (by decide), hout (by decide), hout (by decide), hout (by decide), hout (by decide)]
  · simp (disch := decide) only [RegisterFile.get_set_of_ne]
    exact isSet_set_put Rx.padConnect _ _ false
  · simp (disch := decide) only [RegisterFile.get_set_of_ne]
    exact isSet_set_put Rx.terminate _ _ true
  · simp (disch := decide) only [RegisterFile.get_set_of_ne]
    exact congrArg _ (get_set_assign Rx.lnaGain _ old _)
  · simp (disch := decide) only [RegisterFile.get_set_of_ne]
    exact RegisterFile.get_set_self _ _ _
  · exact RegisterFile.get_set_self _ _ _

/-- Setting up leaves the chip prepared for the first attempt, if it ends well. -/
theorem leads_setUp {backup : Backup} (hfront : backup.frontEnd.isSome = b.usesFrontEnd)
    (h : Shows b r₀ past r attempt begun) :
    Leads b r₀ past (setUp b backup) fun _ past' => ∃ r', Shows b r₀ past' r' attempt begun ∧
      Prepared b 0 r' := by
  have hne : clockEnable ≠ (Dc.start b).address := by
    cases b <;> decide
  refine (h.writeByte hne _).bind fun _ _ h₁ => ?_
  refine (leads_powerComparators h₁).bind fun _ _ ⟨r', h₂, hon, hkept⟩ => ?_
  have hclock : (Clock.calibration b).isSet (r'.get clockEnable) = true := by
    rw [hkept, RegisterFile.get_set_self, BitField.isSet_put]
  rcases backup with ⟨clocks, _ | found⟩
  · have hb : b.usesFrontEnd = false := hfront.symm
    exact leads_pure ⟨r', h₂, ⟨hclock, hon, by simp [hb]⟩, by simp [hb]⟩
  · exact leads_isolateFrontEnd h₂ found hclock hon

end SettingUp

/-! ## Starting a submodule -/

section Starting

variable {b : Block} {r₀ : RegisterFile} {past past' : List Event} {attempt submodule : Nat}

/-- A submodule that has been started and may be started again. -/
structure Begun (b : Block) (r₀ : RegisterFile) (past : List Event) (attempt submodule : Nat) :
    Prop where
  ready : Ready b r₀ past attempt submodule
  started : submodule ∈ started b past

/-- A submodule stays ready while the set-up is the same and no other submodule is started. -/
theorem Ready.congr (h : Ready b r₀ past attempt submodule) (hsame : SameSetUp r₀ past past')
    (hkept : ∀ s ∈ Calibration.started b past, s ∈ Calibration.started b past')
    (hnew : ∀ s ∈ Calibration.started b past',
      s ∈ Calibration.started b past ∨ s = submodule) :
    Ready b r₀ past' attempt submodule where
  count := hsame.count.trans h.count
  prepared := hsame.prepared h.prepared
  routed hb := hsame.routed (h.routed hb)
  inRange := h.inRange
  complete s hs := hkept s (h.complete s hs)
  ordered s hs := (hnew s hs).elim (h.ordered s) Nat.le_of_eq

/-- A submodule stays ready over events that spare the set-up. -/
theorem Ready.append (h : Ready b r₀ past attempt submodule) {new : List Event}
    (hnew : ∀ e ∈ new, Spares b e) : Ready b r₀ (past ++ new) attempt submodule := by
  have hstarted := started_append past hnew List.mem_cons_self
  exact h.congr (sameSetUp_append hnew) (by simp [hstarted]) (by simp_all)

theorem Begun.append (h : Begun b r₀ past attempt submodule) {new : List Event}
    (hnew : ∀ e ∈ new, Spares b e) : Begun b r₀ (past ++ new) attempt submodule :=
  ⟨h.ready.append hnew, (started_append past hnew List.mem_cons_self).symm ▸ h.started⟩

section Control

variable {value : Byte} (hvalue : ((Dc.submodule b).get value).toNat = submodule)

include hvalue

/-- A write to the control register that addresses a submodule starts that one or none. -/
theorem started_write_control (past : List Event) :
    started b (past ++ [.write (Dc.start b).address value true]) =
      if (Dc.start b).isSet value then started b past ++ [submodule] else started b past := by
  simp [Event.startStep, hvalue]

/-- The control register may be written with a submodule addressed that is ready. -/
theorem Ready.leads_control (h : Ready b r₀ past attempt submodule) :
    Leads b r₀ past (writeByte (Dc.start b).address value) fun _ past' =>
      Ready b r₀ past' attempt submodule ∧
        ((Dc.start b).isSet value ∨ submodule ∈ Calibration.started b past →
          Begun b r₀ past' attempt submodule) := by
  have hallowed (accepted : Bool) :
      StartAllowed b r₀ past (.write (Dc.start b).address value accepted) := by
    rintro v heq -
    obtain rfl := (Event.write.inj heq).2.1
    exact hvalue ▸ h.count.symm ▸ h
  refine ensures_writeByte hallowed (by rintro _ ⟨⟩) fun _ _ => ?_
  have hstarted := started_write_control hvalue past
  have hready :
      Ready b r₀ (past ++ [.write (Dc.start b).address value true]) attempt submodule := by
    refine h.congr (sameSetUp_write (control_notMem_setUpRegisters b) value true) ?_ ?_
    · intro s hs
      rw [hstarted]
      split <;> simp [hs]
    · intro s hs
      rw [hstarted] at hs
      split at hs <;> simp_all
  refine ⟨hready, fun hbegun => ⟨hready, ?_⟩⟩
  rw [hstarted]
  split
  · simp
  · next hstart => exact hbegun.resolve_left hstart

end Control

/-- A launch starts the submodule that is ready. -/
theorem leads_launch (h : Ready b r₀ past attempt submodule) (count : BitVec 6) :
    Leads b r₀ past (launch b submodule count)
      fun _ past' => Begun b r₀ past' attempt submodule := by
  have hcount : (Dc.count b).address ∉ (Dc.start b).address :: setUpRegisters := by
    cases b <;> decide
  have hlt : submodule < 8 := by
    have := h.inRange
    cases b <;> simp only [Block.submodules] at this <;> omega
  refine (leads_readByte _).bind fun old _ => ?_
  rintro rfl
  have hread : ∀ e ∈ [Event.read (Dc.submodule b).address (some old)], Spares b e := by
    simp [Avoids]
  replace h := h.append hread
  generalize hcontrol : (Dc.submodule b).set old (BitVec.ofNat 3 submodule) = control
  have haddressed : ((Dc.submodule b).get control).toNat = submodule := by
    rw [← hcontrol, BitField.get_set_self, BitVec.toNat_ofNat, Nat.mod_eq_of_lt hlt]
  refine (h.leads_control haddressed).bind fun _ _ ⟨h₁, _⟩ => ?_
  refine (leads_writeByte (List.ne_of_not_mem_cons hcount) _).bind fun _ _ => ?_
  rintro rfl
  have hlatch : ∀ e ∈ [Event.write (Dc.count b).address ((Dc.count b).set 0 count) true],
      Spares b e := by
    simpa [Avoids] using hcount
  replace h₁ := h₁.append hlatch
  -- the strobes keep the submodule addressed
  have hload (on : Bool) : ((Dc.submodule b).get ((Dc.load b).put control on)).toNat = submodule :=
    (congrArg _ (get_submodule_put_load b control on)).trans haddressed
  refine (h₁.leads_control (hload true)).bind fun _ _ ⟨h₂, _⟩ => ?_
  have hload' := (congrArg BitVec.toNat (get_submodule_put_load b _ false)).trans (hload true)
  refine (h₂.leads_control hload').bind fun _ _ ⟨h₃, _⟩ => ?_
  have hstart := (congrArg BitVec.toNat (get_submodule_put_start b _ true)).trans hload'
  refine (h₃.leads_control hstart).bind fun _ _ ⟨_, h₄⟩ => ?_
  have hbegun := h₄ (.inl (BitField.isSet_put _ _ _))
  have hstart' := (congrArg BitVec.toNat (get_submodule_put_start b _ false)).trans hstart
  exact (hbegun.ready.leads_control hstart').mono fun _ _ h₅ => h₅.2 (.inr hbegun.started)

/-- Waiting writes nothing. -/
theorem spares_awaitValue (b : Block) : (awaitValue b).Emits (Spares b) :=
  emits_awaitValue (fun _ => trivial) (fun _ => trivial) (fun _ => trivial) (fun _ => trivial)
    trivial

/-- A loop starts its submodule and no other. -/
theorem leads_settle (h : Ready b r₀ past attempt submodule) (count : BitVec 6) :
    Leads b r₀ past (settle b submodule count)
      fun _ past' => Begun b r₀ past' attempt submodule := by
  rw [settle_eq]
  have hlog : Spares b (.note (.calibrating b submodule)) := trivial
  refine (leads_of_emits (emits_log hlog)).bind fun _ _ ⟨new, hnew, hspares⟩ => ?_
  subst hnew
  refine (leads_launch (h.append hspares) count).bind fun _ _ hbegun => ?_
  refine (leads_of_emits (spares_awaitValue b)).mono fun _ _ ⟨new, hnew, hspares⟩ => ?_
  exact hnew ▸ hbegun.append hspares

end Starting

/-! ## An attempt -/

section Attempt

variable {b : Block} {r₀ r : RegisterFile} {past past' : List Event} {attempt submodule : Nat}

/-- A submodule is the next one: the chip is set up, the submodules before have all been started,
and for RXVGA2 the stages are still routed to the last of them. -/
structure Due (b : Block) (r₀ : RegisterFile) (past : List Event) (attempt submodule : Nat) :
    Prop where
  count : retryCount past = attempt
  prepared : Prepared b attempt (r₀.after past)
  routed : ∀ last, submodule = last + 1 → b = .rxvga2 → Routed last (r₀.after past)
  complete : ∀ s < submodule, s ∈ started b past
  ordered : ∀ s ∈ started b past, s < submodule

/-- After a submodule that has been started the next one is due. -/
theorem Begun.due (h : Begun b r₀ past attempt submodule) :
    Due b r₀ past attempt (submodule + 1) where
  count := h.ready.count
  prepared := h.ready.prepared
  routed last hlast hb := by
    obtain rfl : submodule = last := Nat.succ.inj hlast
    exact h.ready.routed hb
  complete s hs := by
    rcases Nat.lt_succ_iff_lt_or_eq.1 hs with hs | rfl
    · exact h.ready.complete s hs
    · exact h.started
  ordered s hs := Nat.lt_succ_of_le (h.ready.ordered s hs)

/-- The next submodule is ready once the stages are routed to it. -/
theorem Due.ready (h : Due b r₀ past attempt submodule) (hlt : submodule < b.submodules)
    (hshows : Shows b r₀ past' r attempt (started b past))
    (hsame : ∀ a ∈ poweredRegisters ++ gainRegisters, r.get a = (r₀.after past).get a)
    (hrouted : b = .rxvga2 → Routed submodule r) : Ready b r₀ past' attempt submodule where
  count := hshows.count
  prepared := hshows.registers ▸ h.prepared.congr hsame
  routed hb := hshows.registers ▸ hrouted hb
  inRange := hlt
  complete s hs := hshows.started ▸ h.complete s hs
  ordered s hs := Nat.le_of_lt (h.ordered s (hshows.started ▸ hs))

/-- Routing writes neither of the registers that the rest of the set-up shows in. -/
theorem get_set_routing {address : Address} (h : address ∈ routingRegisters) (r : RegisterFile)
    (value : Byte) :
    ∀ a ∈ poweredRegisters ++ gainRegisters, (r.set address value).get a = r.get a := by
  have hdisjoint : ∀ a ∈ poweredRegisters ++ gainRegisters, a ∉ routingRegisters := by decide
  intro a ha
  refine RegisterFile.get_set_of_ne r ?_ value
  rintro rfl
  exact hdisjoint _ ha h

/-- Routing makes the submodule ready that is due. For those that share a routing nothing has to be
done. -/
theorem Due.routeStages (h : Due b r₀ past attempt submodule) (hlt : submodule < b.submodules) :
    Leads b r₀ past (routeStages b submodule)
      fun _ past' => Ready b r₀ past' attempt submodule := by
  have hshows : Shows b r₀ past (r₀.after past) attempt (started b past) := ⟨rfl, h.count, rfl⟩
  -- a submodule that shares its routing with the one before needs no step
  have hstay (hrouted : b = .rxvga2 → Routed submodule (r₀.after past)) :
      Leads b r₀ past (pure ()) fun _ past' => Ready b r₀ past' attempt submodule :=
    leads_pure (h.ready hlt hshows (fun _ _ => rfl) hrouted)
  have hcontrol : rxvga2Control ∈ routingRegisters := by decide
  have hstages : rxvga2Stages ∈ routingRegisters := by decide
  cases b with
  | lpfTuning | txLpf | rxLpf => exact hstay (by rintro ⟨⟩)
  | rxvga2 =>
    match submodule, hlt with
    | 0, hlt | 1, hlt =>
      refine (hshows.modify (by decide) _).bind fun _ _ ⟨old, h₁⟩ => ?_
      refine (h₁.writeByte (by decide) _).mono fun _ _ h₂ => h.ready hlt h₂ ?_ fun _ => ⟨?_, ?_⟩
      · intro a ha
        rw [get_set_routing hstages _ _ a ha]
        exact get_set_routing hcontrol _ _ a ha
      · rw [RegisterFile.get_set_of_ne _ (by decide)]
        exact isSet_set_put Rx.vga2Decode _ old _
      · exact RegisterFile.get_set_self _ _ _
    | 2, hlt =>
      have hlast := h.routed 1 rfl rfl
      exact hstay fun _ => ⟨hlast.decode, hlast.stages⟩
    | 3, hlt =>
      refine (hshows.writeByte (by decide) _).mono fun _ _ h₁ => ?_
      refine h.ready hlt h₁ (get_set_routing hstages _ _) fun _ => ⟨?_, ?_⟩
      · rw [RegisterFile.get_set_of_ne _ (by decide)]
        exact (h.routed 2 rfl rfl).decode
      · exact RegisterFile.get_set_self _ _ _
    | 4, hlt =>
      have hlast := h.routed 3 rfl rfl
      exact hstay fun _ => ⟨hlast.decode, hlast.stages⟩

/-- The DC levels of the filters are no part of the set-up. -/
theorem spares_dcLevel (h : Half) (value : Byte) (accepted : Bool) :
    Spares b (.write (Lpf.dcLevel h).address value accepted) := by
  show (Lpf.dcLevel h).address ∉ (Dc.start b).address :: setUpRegisters
  cases b <;> cases h <;> decide

/-- A submodule stays started over events that spare the set-up. -/
theorem Begun.bind {α β : Type} {p : Procedure α} {f : α → Procedure β} {Q : β → List Event → Prop}
    (h : Begun b r₀ past attempt submodule) (hp : p.Emits (Spares b))
    (hf : ∀ a past', Begun b r₀ past' attempt submodule → Leads b r₀ past' (f a) Q) :
    Leads b r₀ past (p >>= f) Q := by
  refine (leads_of_emits hp).bind fun a _ ⟨new, hnew, hspares⟩ => hf a _ ?_
  exact hnew ▸ h.append hspares

/-- A submodule that is due has been started when it is done, also if its loop does not finish. -/
theorem Due.calibrateSubmodule (h : Due b r₀ past attempt submodule)
    (hlt : submodule < b.submodules) :
    Leads b r₀ past (calibrateSubmodule b submodule) fun _ past' =>
      Begun b r₀ past' attempt submodule := by
  refine (h.routeStages hlt).bind fun _ _ hready => ?_
  refine (leads_settle hready startCount).bind fun first _ hbegun => ?_
  cases first with
  | none => exact leads_pure hbegun
  | some first =>
    dsimp only
    split
    · -- a suspect result, the same submodule is started once more
      refine hbegun.bind (emits_log trivial) fun _ _ hbegun => ?_
      refine (leads_settle hbegun.ready 0).bind fun second _ hbegun => ?_
      cases second with
      | none => exact leads_pure hbegun
      | some second =>
        have hadopt := emits_adoptSecond (E := Spares b) (fun _ _ => trivial) spares_dcLevel trivial
        exact hbegun.bind (hadopt b second) fun _ _ hbegun => leads_pure hbegun
    · have hadopt := emits_adopt (E := Spares b) (fun _ _ => trivial) spares_dcLevel
      exact hbegun.bind (hadopt b first) fun _ _ hbegun => leads_pure hbegun

/-- Submodules that are next, one after the other. -/
theorem Due.calibrateAll {count : Nat} (h : Due b r₀ past attempt submodule)
    (hcount : submodule + count = b.submodules) :
    Leads b r₀ past (calibrateAll b (List.range' submodule count)) fun finished past' =>
      (retryCount past' = attempt ∧ Prepared b attempt (r₀.after past')) ∧
        (finished → ∀ s < b.submodules, s ∈ started b past') := by
  induction count generalizing past submodule with
  | zero =>
    obtain rfl : submodule = b.submodules := hcount
    exact leads_pure ⟨⟨h.count, h.prepared⟩, fun _ => h.complete⟩
  | succ count ih =>
    rw [List.range'_succ]
    refine (h.calibrateSubmodule (by omega)).bind fun finished _ hbegun => ?_
    split
    · exact ih hbegun.due (by omega)
    · exact leads_pure ⟨⟨hbegun.ready.count, hbegun.ready.prepared⟩, by simp⟩

end Attempt

/-! ## Every attempt -/

section Attempts

variable {b : Block} {r₀ r : RegisterFile} {past : List Event} {attempt : Nat}

/-- Before any submodule of an attempt is started, the first one is the next. -/
theorem Prepared.due (hp : Prepared b attempt r) (h : Shows b r₀ past r attempt []) :
    Due b r₀ past attempt 0 where
  count := h.count
  prepared := h.registers ▸ hp
  routed := by simp
  complete := by simp
  ordered := by simp [h.started]

/-- Lowering a gain prepares the next attempt. -/
theorem Prepared.next (hp : Prepared b attempt r) {a : Adjustment}
    (hadjust : b.adjustment? (.ofAttempt attempt) = some a) :
    Prepared b (attempt + 1) (r.set a.stage.address (a.stage.encode a.gain 0)) where
  powered := by
    refine hp.powered.congr fun address haddress => RegisterFile.get_set_of_ne _ ?_ _
    rintro rfl
    revert haddress
    rcases Block.adjusted_stage hadjust with hstage | hstage <;> rw [hstage] <;> decide
  gains hb := (hp.gains hb).next hadjust

/-- An attempt keeps the chip prepared, and one that finishes has started every submodule. -/
theorem leads_attemptBlock (hp : Prepared b attempt r) (h : Shows b r₀ past r attempt []) :
    Leads b r₀ past (attemptBlock b) fun finished past' =>
      (retryCount past' = attempt ∧ Prepared b attempt (r₀.after past')) ∧
        (finished → ∀ s < b.submodules, s ∈ started b past') := by
  rw [attemptBlock, List.range_eq_range']
  exact (hp.due h).calibrateAll (Nat.zero_add _)

/-- A note that a further attempt begins starts over. -/
theorem leads_retrying (hcount : retryCount past = attempt) (stage : DbStage) (gain : Int) :
    Leads b r₀ past (log (.retrying stage gain)) fun _ past' =>
      Shows b r₀ past' (r₀.after past) (attempt + 1) [] := by
  refine ensures_log (fun value heq => nomatch heq) fun _ _ => ⟨?_, ?_, ?_⟩
  · simp [RegisterFile.step]
  · simp [retryCount, Event.isRetry, ← hcount]
  · simp [Event.startStep]

/-- Attempts, with the gains of the next one and the chip prepared for it. -/
theorem leads_converge {gains : Gains} (hgains : gains = .ofAttempt attempt)
    (hp : Prepared b attempt r) (h : Shows b r₀ past r attempt []) :
    Leads b r₀ past (converge b gains) fun _ past' =>
      ∀ s < b.submodules, s ∈ started b past' := by
  -- induction on the gains that are left; the attempt and its gains go down together
  induction gains using b.adjustment_induction generalizing attempt past r with
  | step gains ih =>
    cases hadjust : b.adjustment? gains with
    | none =>
      rw [converge_of_none hadjust]
      refine (leads_attemptBlock hp h).bind fun finished _ hfinished => ?_
      split
      · next hok => exact leads_pure (hfinished.2 hok)
      · have hlog (entry : Note) (hentry : Spares b (.note entry)) := emits_log hentry
        refine (leads_of_emits (hlog .retriesExhausted trivial)).bind fun _ _ _ => ?_
        refine (leads_of_emits (hlog (.calibrationFailed b) trivial)).bind fun _ _ _ => ?_
        exact leads_fail
    | some a =>
      rw [converge_of_some hadjust]
      refine (leads_attemptBlock hp h).bind fun finished past' hfinished => ?_
      split
      · next hok => exact leads_pure (hfinished.2 hok)
      · -- a further attempt begins, one rung down the ladder
        have hstage := Block.adjusted_stage hadjust
        have hne : a.stage.address ≠ (Dc.start b).address := by
          rcases hstage with hstage | hstage <;> rw [hstage] <;> cases b <;> decide
        have hrung : b.adjustment? (.ofAttempt attempt) = some a := hgains ▸ hadjust
        refine (leads_retrying hfinished.1.1 _ _).bind fun _ _ hshows => ?_
        refine (hshows.setDb hstage hne (clamp_adjusted hrung)).bind fun _ _ hset => ?_
        exact ih a hadjust (adjusted_gains hrung) (hfinished.1.2.next hrung) hset

/-- Before the first attempt nothing has been started. -/
theorem shows_of_spares (h : ∀ e ∈ past, Spares b e) : Shows b r₀ past (r₀.after past) 0 [] where
  registers := rfl
  count := retryCount_eq_zero fun e he => (h e he).isRetry
  started := started_append [] h List.mem_cons_self

/-- The backup holds the front end exactly for a block that is calibrated through it. -/
theorem leads_takeBackup (b : Block) (r₀ : RegisterFile) :
    Leads b r₀ [] (takeBackup b) fun backup past' =>
      backup.frontEnd.isSome = b.usesFrontEnd ∧ Shows b r₀ past' (r₀.after past') 0 [] := by
  refine (leads_readByte clockEnable).bind fun clocks _ hread => ?_
  have hspares : ∀ e ∈ [Event.read clockEnable (some clocks)], Spares b e := by simp [Avoids]
  subst hread
  split
  · next hb =>
    have hfront : readFrontEnd.Emits (Spares b) := emits_readFrontEnd fun _ _ _ => trivial
    refine (leads_of_emits hfront).bind fun found _ ⟨new, hnew, hmore⟩ => ?_
    subst hnew
    exact leads_pure ⟨hb.symm, shows_of_spares (List.forall_mem_append.2 ⟨hspares, hmore⟩)⟩
  · next hb =>
    exact leads_pure ⟨(Bool.eq_false_iff.2 hb).symm, shows_of_spares hspares⟩

/-- The clean-up starts nothing. -/
theorem avoids_cleanUp (b : Block) (backup : Backup) :
    ∀ p ∈ cleanUp b backup, p.Emits (Avoids [(Dc.start b).address]) := by
  refine emits_cleanUp (fun _ _ _ => trivial) (fun address haddress _ _ => ?_)
    (fun _ _ => trivial) b
    backup
  have hne : address ≠ (Dc.start b).address := by
    rintro rfl
    exact control_notMem_setUpRegisters b haddress
  simpa [Avoids] using hne

/-- A calibration that ends well has started every submodule. -/
theorem leads_calibrate (b : Block) (r₀ : RegisterFile) :
    Leads b r₀ [] (takeBackup b >>= fun backup =>
        forceAll (setUpAndConverge b backup :: cleanUp b backup)) fun _ past' =>
      ∀ s < b.submodules, s ∈ started b past' := by
  refine (leads_takeBackup b r₀).bind fun backup _ ⟨hfront, hshows⟩ => ?_
  have hbody : Leads b r₀ _ (setUpAndConverge b backup) fun _ past' =>
      ∀ s < b.submodules, s ∈ started b past' :=
    (leads_setUp hfront hshows).bind fun _ _ ⟨r', hset, hp⟩ => leads_converge highest_eq hp hset
  refine Ensures.forceAll_cons hbody fun first past' hfirst => ?_
  refine ((emits_forceAll (avoids_cleanUp b backup)).ensures fun _ e he => ?_).mono ?_
  · rintro value rfl -
    exact absurd (List.mem_singleton_self _) he
  · rintro others _ ⟨new, rfl, hnew⟩ _ hok
    -- an attempt went well only if the whole does, and the clean-up leaves its starts
    rw [started_append _ hnew (List.mem_singleton_self _)]
    cases first with
    | ok u => exact hfirst u rfl
    | error fault => cases hok

/-- In every calibration, whatever is refused and however its loops go, an engine is started only
while the chip is set up for it: at each accepted write with the start bit, the registers show the
set-up of the block for the present attempt and, for RXVGA2, the routing to the submodule that is
addressed; the submodules before it have been started in this attempt, and none after it. A
calibration that ends well has started every submodule in its last attempt. -/
theorem calibrate_starts_in_set_up (refused : Nat → Bool) (b : Block) (n : Nat) (c : Chip) :
    let o := (calibrate b).run (bus refused) (n, c)
    o.state.2.registers = c.registers.after o.events ∧
      (∀ pre value post, o.events = pre ++ .write (Dc.start b).address value true :: post →
        (Dc.start b).isSet value →
        Ready b c.registers pre (retryCount pre) ((Dc.submodule b).get value).toNat) ∧
      (o.result = .ok () → ∀ s < b.submodules, s ∈ started b o.events) := by
  intro o
  have hrun := (leads_calibrate b c.registers).run (bus refused) (n, c)
  rw [← run_calibrate] at hrun
  refine ⟨registers_run refused (calibrate b) (n, c), fun pre value post heq hstart => ?_, ?_⟩
  · exact hrun.2 pre _ post heq value rfl hstart
  · exact fun hok => hrun.1 () hok

end Attempts

end Calibration

end Transceiver
