import Transceiver.Proofs.PathSwitches

/-!
# Changing the loopback

A change of mode opens every path switch before anything else happens to the paths, and closes those
of the new mode last. In between all of them are open, however many registers the two halves and
their synthesizers write meanwhile. Two things follow for every state of the chip and every set of
refused accesses: the mode that the chip shows is changed as a whole or not at all, and no path is
closed while an amplifier can be on, but by the last two writes.
-/

namespace Transceiver.Loopback

open Procedure Register Chip

/-! ## The state of the path switches -/

/-- The bits of a register that are path switches. -/
def pathSwitches (address : Address) : Byte :=
  if address = loopbackControl then
    Loop.toRxLpf.put (Loop.toRxvga2.put (Loop.toOutputPins.put (Loop.rf.set 0 15) true) true) true
  else if address = basebandLoop then Loop.source.set 0 3
  else 0

/-- Every path switch is open. -/
def AllOpen (r : RegisterFile) : Prop :=
  ∀ address, r.get address &&& pathSwitches address = 0

/-- The mode that the path switches show. -/
def shown (r : RegisterFile) : Mode :=
  Mode.decode (r.get loopbackControl) (r.get basebandLoop)

/-- What the chip shows as its loopback is a matter of two registers. -/
theorem shows_current (c : Chip) : c.shows current = .ok (shown c.registers) := by
  unfold shows current
  have hc : { c with failRead := none, failWrite := none : Chip }.failRead = none := rfl
  rw [run_bind_of_ok _ _ (by rw [run_readByte_transport rfl hc]),
    run_readByte_transport rfl hc, run_bind_of_ok _ _ (by rw [run_readByte_transport rfl hc]),
    run_readByte_transport rfl hc]
  rfl

/-- Other registers have no path switches. -/
theorem open_elsewhere {address : Address} (hcontrol : address ≠ loopbackControl)
    (hsource : address ≠ basebandLoop) (value : Byte) : value &&& pathSwitches address = 0 := by
  rw [pathSwitches, if_neg hcontrol, if_neg hsource]
  exact BitVec.and_zero

/-- Closing the paths of no loopback opens all path switches of the loopback register. -/
theorem open_closePath (control : Byte) :
    Mode.none.closePath control &&& pathSwitches loopbackControl = 0 := by
  revert control
  decide +kernel

theorem open_closeSource (source : Byte) :
    Mode.none.closeSource source &&& pathSwitches basebandLoop = 0 := by
  revert source
  decide +kernel

/-- With the switches of the loopback register open no source makes a loopback. -/
theorem decode_of_open {control : Byte} (h : control &&& pathSwitches loopbackControl = 0)
    (source : Byte) : Mode.decode control source = .none := by
  have hfields : ∀ control : Byte, control &&& pathSwitches loopbackControl = 0 →
      Loop.rf.get control = 0 ∧ Mode.dest? control = none := by
    decide +kernel
  obtain ⟨hrf, hdest⟩ := hfields control h
  simp [Mode.decode, hrf, hdest, RfPath.ofCode?]

/-- Disconnecting the source leaves a radio frequency loopback or none. -/
theorem decode_closeSource (control source : Byte) :
    Mode.decode control (Mode.none.closeSource source) = Mode.decode control source ∨
      Mode.decode control (Mode.none.closeSource source) = .none := by
  simp only [Mode.decode]
  split
  · exact .inl rfl
  · refine .inr ?_
    rw [Mode.closeSource, BitField.get_set_self]
    cases Mode.dest? control <;> rfl

variable {r : RegisterFile}

/-- With all path switches open no loopback is shown. -/
theorem AllOpen.shown (h : AllOpen r) : shown r = .none :=
  decode_of_open (h loopbackControl) _

/-- Writes that spare the path switches leave both registers as they were. -/
theorem get_after_of_spares {events : List Event}
    (h : ∀ a v, .write a v true ∈ events → SparesPath a v) (r : RegisterFile) :
    (r.after events).get loopbackControl = r.get loopbackControl ∧
      (r.after events).get basebandLoop = r.get basebandLoop := by
  constructor
  · exact RegisterFile.get_after (fun value hmem => (h _ _ hmem).1 rfl) r
  · exact RegisterFile.get_after (fun value hmem => (h _ _ hmem).2 rfl) r

/-- Writes that spare the path switches leave them open. -/
theorem AllOpen.after (hopen : AllOpen r) {events : List Event}
    (h : ∀ a v, .write a v true ∈ events → SparesPath a v) : AllOpen (r.after events) := by
  obtain ⟨hcontrol, hsource⟩ := get_after_of_spares h r
  intro address
  by_cases hc : address = loopbackControl
  · rw [hc, hcontrol]
    exact hopen loopbackControl
  by_cases hs : address = basebandLoop
  · rw [hs, hsource]
    exact hopen basebandLoop
  · exact open_elsewhere hc hs _

/-- Writes that spare the path switches leave the mode as it is shown. -/
theorem shown_after {events : List Event} (h : ∀ a v, .write a v true ∈ events → SparesPath a v)
    (r : RegisterFile) : shown (r.after events) = shown r := by
  obtain ⟨hcontrol, hsource⟩ := get_after_of_spares h r
  rw [shown, shown, hcontrol, hsource]

/-- Opening the path switches in both registers opens all of them. -/
theorem allOpen_opened (r : RegisterFile) :
    AllOpen ((r.set basebandLoop (Mode.none.closeSource (r.get basebandLoop))).set loopbackControl
      (Mode.none.closePath (r.get loopbackControl))) := by
  intro address
  rw [RegisterFile.get_set]
  split
  · next hc => exact hc ▸ open_closePath _
  · next hc =>
    rw [RegisterFile.get_set]
    split
    · next hs => exact hs ▸ open_closeSource _
    · next hs => exact open_elsewhere (Ne.symm hc) (Ne.symm hs) _

/-! ## The phases of a change -/

/-- The first phase: no amplifier is selected. -/
def silence (mode : Mode) : Procedure Unit := do
  log (.settingLoopback mode)
  Amplifier.selectPowerAmp .none
  Amplifier.selectLna .none

/-- The phase between the two switchings: the halves are set up. -/
def setUpHalves (mode : Mode) : Procedure Unit := do
  prepareRx mode
  prepareTx mode

/-- Everything that comes before the paths of the mode are closed. -/
def prepare (mode : Mode) : Procedure Unit := do
  silence mode
  closeSwitches .none
  setUpHalves mode

/-- A change is its preparation, and the closing of the paths at the very end. -/
theorem change_eq (mode : Mode) : change mode = (do prepare mode; closeSwitches mode) := by
  simp only [change, prepare, silence, setUpHalves, LawfulMonad.bind_assoc]

/-- Deselecting the amplifiers spares the path switches. -/
theorem writesOnly_silence (mode : Mode) : (silence mode).WritesOnly SparesPath := by
  have hpa : (Amplifier.selectPowerAmp .none).WritesOnly SparesPath :=
    (writesOnly_modify _ _).2 fun _ => sparesPath_of_ne (by decide) _
  have hlna : (Amplifier.selectLna .none).WritesOnly SparesPath :=
    (writesOnly_assign _ _).2 fun _ => sparesPath_of_ne (by decide) _
  simp [silence, hpa, hlna]

/-- Setting up the halves spares them too, with the tuning in it. -/
theorem writesOnly_setUpHalves (mode : Mode) : (setUpHalves mode).WritesOnly SparesPath := by
  have hrx := (writesOnly_prepareRx mode).mono fun _ value hmem => sparesPath_of_prepared hmem value
  have htx := (writesOnly_prepareTx mode).mono fun _ value hmem => sparesPath_of_prepared hmem value
  simp [setUpHalves, hrx, htx]

variable (refused : Nat → Bool)

/-- Switching the paths, in terms of the registers afterwards. -/
theorem registers_closeSwitches (mode : Mode) (s : Nat × Chip) :
    let o := (closeSwitches mode).run (bus refused) s
    let source := s.2.registers.set basebandLoop
      (mode.closeSource (s.2.registers.get basebandLoop))
    (o.result = .error .io ∧
      (o.state.2.registers = s.2.registers ∨ o.state.2.registers = source)) ∨
    (o.result = .ok () ∧ o.state.2.registers =
      source.set loopbackControl (mode.closePath (s.2.registers.get loopbackControl))) := by
  intro o source
  have hregs : o.state.2.registers = s.2.registers.after o.events := registers_run refused _ s
  have hreads {reads : List Event} (h : ∀ e ∈ reads, e.isWrite = false) :
      s.2.registers.after reads = s.2.registers := by
    refine RegisterFile.after_eq_self (fun a v hmem => ?_) _
    cases h _ hmem
  cases switched_closeSwitches refused mode s with
  | untouched result writes =>
    exact .inl ⟨result, .inl (hregs.trans (RegisterFile.after_eq_self writes _))⟩
  | source reads result writes events =>
    refine .inl ⟨result, .inr ?_⟩
    rw [hregs, events, RegisterFile.after_append, hreads writes]
    rfl
  | both reads result writes events =>
    refine .inr ⟨result, ?_⟩
    rw [hregs, events, RegisterFile.after_append, hreads writes]
    rfl

/-- Opening the paths leaves all switches open, if it ends well. -/
theorem allOpen_closeSwitches {s : Nat × Chip} {u : Unit}
    (h : ((closeSwitches .none).run (bus refused) s).result = .ok u) :
    AllOpen ((closeSwitches .none).run (bus refused) s).state.2.registers := by
  rcases registers_closeSwitches refused .none s with ⟨hr, -⟩ | ⟨-, hregs⟩
  · rw [hr] at h
    cases h
  · rw [hregs]
    exact allOpen_opened _

/-- A run that spares the path switches leaves the mode as it is shown. -/
theorem shown_run {α : Type} {p : Procedure α} (h : p.WritesOnly SparesPath) (s : Nat × Chip) :
    shown (p.run (bus refused) s).state.2.registers = shown s.2.registers := by
  rw [registers_run]
  exact shown_after (fun _ _ hmem => h.of_mem _ _ hmem) _

/-- A run that spares the path switches leaves them open. -/
theorem AllOpen.run {α : Type} {p : Procedure α} {s : Nat × Chip} (hopen : AllOpen s.2.registers)
    (h : p.WritesOnly SparesPath) : AllOpen (p.run (bus refused) s).state.2.registers := by
  rw [registers_run]
  exact hopen.after fun _ _ hmem => h.of_mem _ _ hmem

/-- Opening the paths leaves the mode as it is shown, or none. -/
theorem shown_open (s : Nat × Chip) :
    let after := ((closeSwitches .none).run (bus refused) s).state.2.registers
    shown after = shown s.2.registers ∨ shown after = .none := by
  intro after
  rcases registers_closeSwitches refused .none s with ⟨-, hregs | hregs⟩ | ⟨hr, -⟩
  · exact .inl (congrArg shown hregs)
  · have hne : basebandLoop ≠ loopbackControl := by decide
    simp only [after, hregs, shown, RegisterFile.get_set_self, RegisterFile.get_set_of_ne _ hne]
    exact decode_closeSource _ _
  · exact .inr (allOpen_closeSwitches refused hr).shown

/-- Before the paths of the new mode are closed, the chip shows the old mode or none, and in the
end all switches are open. -/
theorem shown_prepare (mode : Mode) (s : Nat × Chip) :
    let o := (prepare mode).run (bus refused) s
    (∀ u, o.result = .ok u → AllOpen o.state.2.registers) ∧
    (shown o.state.2.registers = shown s.2.registers ∨ shown o.state.2.registers = .none) := by
  intro o
  have hsilent := shown_run refused (writesOnly_silence mode) s
  simp only [o, prepare]
  cases hr : ((silence mode).run (bus refused) s).result with
  | error fault =>
    rw [run_bind_of_error _ _ hr]
    exact ⟨by rintro _ ⟨⟩, .inl hsilent⟩
  | ok u =>
    rw [run_bind_of_ok _ _ hr, ← hsilent]
    generalize ((silence mode).run (bus refused) s).state = s₁
    cases hr₁ : ((closeSwitches .none).run (bus refused) s₁).result with
    | error fault =>
      rw [run_bind_of_error _ _ hr₁]
      exact ⟨by rintro _ ⟨⟩, shown_open refused s₁⟩
    | ok u₁ =>
      have hopen := (allOpen_closeSwitches refused hr₁).run refused (writesOnly_setUpHalves mode)
      rw [run_bind_of_ok _ _ hr₁]
      exact ⟨fun _ _ => hopen, .inr hopen.shown⟩

/-! ## All or nothing -/

/-- A change that ends well shows the new mode. One that fails shows the mode from before or none,
so never a third mode, and the new one only if that is what was shown before or is no loopback. -/
theorem change_all_or_nothing (mode : Mode) (n : Nat) (c : Chip) :
    let o := (change mode).run (bus refused) (n, c)
    (∀ u, o.result = .ok u → o.state.2.shows current = .ok mode) ∧
    (∀ fault, o.result = .error fault →
      (o.state.2.shows current = c.shows current ∨ o.state.2.shows current = .ok .none) ∧
      (o.state.2.shows current = .ok mode → c.shows current = .ok mode ∨ mode = .none)) := by
  intro o
  have hprepare := shown_prepare refused mode (n, c)
  have hshown : (∀ u, o.result = .ok u → shown o.state.2.registers = mode) ∧
      (∀ fault, o.result = .error fault →
        shown o.state.2.registers = shown c.registers ∨ shown o.state.2.registers = .none) := by
    simp only [o, change_eq]
    cases hr : ((prepare mode).run (bus refused) (n, c)).result with
    | error fault =>
      rw [run_bind_of_error _ _ hr]
      exact ⟨by rintro _ ⟨⟩, fun _ _ => hprepare.2⟩
    | ok u =>
      have hopen := hprepare.1 u hr
      rw [run_bind_of_ok _ _ hr]
      generalize ((prepare mode).run (bus refused) (n, c)).state = s at hopen
      have hne : basebandLoop ≠ loopbackControl := by decide
      rcases registers_closeSwitches refused mode s with ⟨herr, hregs⟩ | ⟨hok, hregs⟩
      · refine ⟨fun u h => ?_, fun _ _ => .inr ?_⟩
        · rw [herr] at h
          cases h
        · -- the loopback register still has all its switches open
          rcases hregs with hregs | hregs
          · simpa only [hregs] using hopen.shown
          · simp only [hregs, shown, RegisterFile.get_set_of_ne _ hne]
            exact decode_of_open (hopen loopbackControl) _
      · refine ⟨fun _ _ => ?_, fun fault h => ?_⟩
        · simp only [hregs, shown, RegisterFile.get_set_self,
            RegisterFile.get_set_of_ne _ hne.symm]
          exact Mode.decode_close mode _ _
        · rw [hok] at h
          cases h
  simp only [shows_current, Except.ok.injEq]
  refine ⟨hshown.1, fun fault h => ⟨hshown.2 fault h, fun hnew => ?_⟩⟩
  rcases hshown.2 fault h with hold | hnone
  · exact .inl (hold.symm.trans hnew)
  · exact .inr (hnew.symm.trans hnone)

/-- The exception for no loopback is needed. A change to it can fail after the paths have been
opened, here at the first access to the receive filter, and the chip shows it all the same. -/
theorem change_to_none_fails_showing_none :
    let c : Chip := { initial with registers := initialRegisters.set loopbackControl 0x01 }
    let o := (change .none).run (bus (· == 8)) (0, c)
    o.result = .error .io ∧
      c.shows current = .ok (.rf .lna1) ∧ o.state.2.shows current = .ok .none :=
  ⟨rfl, rfl, rfl⟩

/-! ## The order of the writes -/

/-- The power amplifiers and the LNAs have been deselected: both of their registers have been
written with none selected. -/
def Silenced (events : List Event) : Prop :=
  (∃ v, .write paControl v true ∈ events ∧
    Amplifier.PowerAmp.decode? v = some Amplifier.PowerAmp.none) ∧
  ∃ v, .write lnaControl v true ∈ events ∧ Amplifier.Lna.ofBits (Rx.lna.get v) = .none

/-- A write that selects a power amplifier or an LNA. -/
def Selects (address : Address) (value : Byte) : Prop :=
  (address = paControl ∧
    Amplifier.PowerAmp.decode? value ≠ some Amplifier.PowerAmp.none) ∨
  (address = lnaControl ∧ Amplifier.Lna.ofBits (Rx.lna.get value) ≠ .none)

/-- Whether a write changes a path switch. -/
def Switches (old : Byte) (address : Address) (value : Byte) : Prop :=
  (old ^^^ value) &&& pathSwitches address ≠ 0

/-- Whether a write closes a path switch that was open. -/
def Closes (old : Byte) (address : Address) (value : Byte) : Prop :=
  value &&& ~~~old &&& pathSwitches address ≠ 0

theorem Silenced.append {left : List Event} (h : Silenced left) (right : List Event) :
    Silenced (left ++ right) := by
  obtain ⟨⟨v, hv, hpa⟩, w, hw, hlna⟩ := h
  exact ⟨⟨v, List.mem_append_left _ hv, hpa⟩, w, List.mem_append_left _ hw, hlna⟩

theorem not_switches_of_spares {old : Byte} {address : Address} {value : Byte}
    (h : SparesPath address value) : ¬ Switches old address value :=
  fun hswitches => hswitches (open_elsewhere h.1 h.2 _)

theorem not_closes_of_spares {old : Byte} {address : Address} {value : Byte}
    (h : SparesPath address value) : ¬ Closes old address value :=
  fun hcloses => hcloses (open_elsewhere h.1 h.2 _)

/-- Contents with all switches open close none. -/
theorem not_closes_of_open {old : Byte} {address : Address} {value : Byte}
    (h : value &&& pathSwitches address = 0) : ¬ Closes old address value := by
  intro hcloses
  refine hcloses ?_
  rw [BitVec.and_assoc, BitVec.and_comm _ (pathSwitches address), ← BitVec.and_assoc, h]
  exact BitVec.zero_and

/-- Selecting a power amplifier selects it, whatever the register held before. -/
theorem decode?_select (pa : Amplifier.PowerAmp) (control : Byte) :
    Amplifier.PowerAmp.decode? (pa.select control) = some pa := by
  revert control
  cases pa <;> decide +kernel

/-- What a write has to satisfy that comes after `pre`, on the way from the registers `r`: path
switches change only after the amplifiers have been silenced, an amplifier is selected only while
all switches are open, and a switch is closed only if `final` holds. -/
structure Guarded (r : RegisterFile) (pre : List Event) (a : Address) (v : Byte) (final : Prop) :
    Prop where
  switching : Switches ((r.after pre).get a) a v → Silenced pre
  selecting : Selects a v → AllOpen (r.after pre)
  closing : Closes ((r.after pre).get a) a v → final

/-- Once the amplifiers have been deselected without a refusal, both writes have been made. -/
theorem silenced_of_ok {mode : Mode} {s : Nat × Chip} {u : Unit}
    (h : ((silence mode).run (bus refused) s).result = .ok u) :
    Silenced ((silence mode).run (bus refused) s).events := by
  obtain ⟨_, -, h, hevents⟩ := run_bind_ok _ h
  obtain ⟨_, hpa, hlna, hevents'⟩ := run_bind_ok _ h
  obtain ⟨old, hold⟩ := mem_of_modify_ok _ hpa
  obtain ⟨old', hold'⟩ := mem_of_modify_ok _ hlna
  rw [silence, hevents, hevents']
  refine ⟨⟨_, ?_, decode?_select .none old⟩, Rx.lna.set old' Amplifier.Lna.none.bits, ?_, ?_⟩
  · exact List.mem_append_right _ (List.mem_append_left _ hold)
  · exact List.mem_append_right _ (List.mem_append_right _ hold')
  · rw [BitField.get_set_self, Amplifier.Lna.ofBits_bits]

/-- The writes of the first phase select nothing and spare the path switches. -/
theorem guarded_silence {mode : Mode} {s : Nat × Chip} {pre post : List Event} {a : Address}
    {v : Byte} {final : Prop}
    (h : ((silence mode).run (bus refused) s).events = pre ++ .write a v true :: post) :
    Guarded s.2.registers pre a v final := by
  have hselects : (silence mode).WritesOnly fun a v => ¬ Selects a v := by
    have hpa (old : Byte) : ¬ Selects paControl (Amplifier.PowerAmp.none.select old) := by
      rintro (⟨-, h⟩ | ⟨h, -⟩)
      · exact h (decode?_select .none old)
      · exact absurd h (by decide)
    have hlna (old : Byte) : ¬ Selects lnaControl (Rx.lna.set old Amplifier.Lna.none.bits) := by
      rintro (⟨h, -⟩ | ⟨-, h⟩)
      · exact absurd h (by decide)
      · exact h (by rw [BitField.get_set_self, Amplifier.Lna.ofBits_bits])
    have hwpa := (writesOnly_modify (W := fun a v => ¬ Selects a v) paControl
      Amplifier.PowerAmp.none.select).2 hpa
    have hwlna := (writesOnly_assign (W := fun a v => ¬ Selects a v) Rx.lna
      Amplifier.Lna.none.bits).2 hlna
    exact writesOnly_bind.2 ⟨trivial, fun _ _ => writesOnly_bind.2 ⟨hwpa, fun _ _ => hwlna⟩⟩
  have hmem : .write a v true ∈ ((silence mode).run (bus refused) s).events := by simp [h]
  have hspares := (writesOnly_silence mode).of_mem _ _ hmem
  exact ⟨fun h => (not_switches_of_spares hspares h).elim,
    fun h => (hselects.of_mem _ _ hmem h).elim, fun h => (not_closes_of_spares hspares h).elim⟩

/-- The registers of the path switches select no amplifier. -/
theorem not_selects_path {a : Address} (h : a = basebandLoop ∨ a = loopbackControl) (v : Byte) :
    ¬ Selects a v := by
  rintro (⟨ha, -⟩ | ⟨ha, -⟩) <;> rcases h with h | h <;> rw [h] at ha <;> revert ha <;> decide

/-- Before the paths of the mode are closed, no path switch is closed at all. -/
theorem guarded_prepare {mode : Mode} {s : Nat × Chip} {pre post : List Event} {a : Address}
    {v : Byte} {final : Prop}
    (h : ((prepare mode).run (bus refused) s).events = pre ++ .write a v true :: post) :
    Guarded s.2.registers pre a v final := by
  rcases events_bind_split _ h with ⟨_, hleft⟩ | ⟨_, pre₁, hok, rfl, hright⟩
  · exact guarded_silence refused hleft
  have hsilenced := (silenced_of_ok refused hok).append pre₁
  rcases events_bind_split _ hright with ⟨_, hclose⟩ | ⟨_, pre₂, hok₂, rfl, hhalves⟩
  · -- the switches are being opened
    have hpath := address_of_write_closeSwitches refused hclose
    have hopen : v &&& pathSwitches a = 0 := by
      rcases write_closeSwitches refused hclose with ⟨rfl, rfl, -⟩ | ⟨rfl, rfl, -⟩
      · exact open_closeSource _
      · exact open_closePath _
    exact ⟨fun _ => hsilenced, fun h => (not_selects_path hpath v h).elim,
      fun h => (not_closes_of_open hopen h).elim⟩
  · -- the halves are being set up
    have hspares (a' : Address) (v' : Byte)
        (hmem : .write a' v' true ∈ pre₂ ++ .write a v true :: post) : SparesPath a' v' :=
      (writesOnly_setUpHalves mode).of_mem _ _ (hhalves ▸ hmem)
    have hself : SparesPath a v := hspares a v (by simp)
    have hpre (a' : Address) (v' : Byte) (hmem : .write a' v' true ∈ pre₂) : SparesPath a' v' :=
      hspares a' v' (List.mem_append_left _ hmem)
    have hopen := (allOpen_closeSwitches refused hok₂).after hpre
    refine ⟨fun h => (not_switches_of_spares hself h).elim, fun _ => ?_,
      fun h => (not_closes_of_spares hself h).elim⟩
    rwa [RegisterFile.after_append, RegisterFile.after_append, ← registers_run, ← registers_run]

/-- On the way to a mode the chip never forms a path that it should not. Path switches are changed
only after all amplifiers have been deselected, an amplifier is selected only while every path
switch is open, and path switches are closed by the very last writes only, when everything before
has gone well. -/
theorem change_forms_no_transient_path (mode : Mode) (n : Nat) (c : Chip) :
    let o := (change mode).run (bus refused) (n, c)
    let before := (prepare mode).run (bus refused) (n, c)
    o.state.2.registers = c.registers.after o.events ∧
    ∀ pre a v post, o.events = pre ++ .write a v true :: post →
      (Switches ((c.registers.after pre).get a) a v → Silenced pre) ∧
      (Selects a v → AllOpen (c.registers.after pre)) ∧
      (Closes ((c.registers.after pre).get a) a v →
        before.result = .ok () ∧
        (∃ pre', pre = before.events ++ pre' ∧
          ((closeSwitches mode).run (bus refused) before.state).events =
            pre' ++ .write a v true :: post) ∧
        (post = [] ∨
          a = basebandLoop ∧ ∃ v' accepted, post = [.write loopbackControl v' accepted])) := by
  intro o before
  refine ⟨registers_run refused _ _, fun pre a v post h => ?_⟩
  simp only [o, change_eq] at h
  rcases events_bind_split _ h with ⟨_, hleft⟩ | ⟨u, pre', hok, rfl, hright⟩
  · have hguarded : Guarded c.registers pre a v False := guarded_prepare refused hleft
    exact ⟨hguarded.switching, hguarded.selecting, fun h => (hguarded.closing h).elim⟩
  · have hsilenced : Silenced before.events := by
      obtain ⟨_, hok', -, hevents⟩ := run_bind_ok _ hok
      simp only [before, prepare, hevents]
      exact (silenced_of_ok refused hok').append _
    have hpath := address_of_write_closeSwitches refused hright
    refine ⟨fun _ => hsilenced.append pre', fun h => (not_selects_path hpath v h).elim,
      fun _ => ⟨hok, ⟨pre', rfl, hright⟩, ?_⟩⟩
    rcases write_closeSwitches refused hright with ⟨ha, -, hpost⟩ | ⟨-, -, hpost⟩
    · exact .inr ⟨ha, hpost⟩
    · exact .inl hpost

end Transceiver.Loopback
