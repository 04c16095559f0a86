import Transceiver.Proofs.IndependentSettings
import Transceiver.Proofs.NormalOperation

/-!
# Loopbacks one after the other

The set-up of the receive half for a mode is not complete. A baseband mode takes no notice of the
radio frequency loopback switch and of the power of the LNA, and one that ends at RXVGA2 takes none
of RXVGA1 either. What a mode does not set is left as the modes before it have set it. So after a
history of loopbacks, each of these parts is as the last mode has set it that sets it at all: an LNA
that was powered down for a radio frequency loopback stays so through every baseband mode after it.
-/

namespace Transceiver

open Procedure Register

/-! ## What a procedure sets a flag to -/

namespace Procedure

variable {α β : Type} {f : Flag} {value : Option Bool}

/-- Whenever the procedure ends well, the flag is what it has been set to, or what it was before if
it is set to nothing. -/
def Puts (f : Flag) (value : Option Bool) (p : Procedure α) : Prop :=
  ∀ r, p.wp none (fun result r' => ∀ a, result = .ok a → r'.flag f = value.getD (r.flag f)) r

theorem puts_pure (a : α) : (pure a : Procedure α).Puts f none :=
  fun _ _ _ => rfl

/-- What is set later counts. -/
theorem Puts.bind {p : Procedure α} {next : α → Procedure β} {later : Option Bool}
    (hp : p.Puts f value) (hnext : ∀ a, (next a).Puts f later) :
    (p >>= next).Puts f (later.or value) := by
  intro r
  refine wp_bind_of_ok (hp r) fun a r' hfirst => ?_
  refine wp_mono (hnext a r') fun result r'' hlast b hb => ?_
  rw [hlast b hb, hfirst]
  cases later <;> rfl

/-- What does not write the register of a flag leaves the flag alone. -/
theorem puts_of_writesOnly {p : Procedure α}
    (h : p.WritesOnly fun address _ => address ≠ f.address) : p.Puts f none := by
  intro r
  refine wp_mono (wp_of_writesOnly h r) fun _ r' hkept _ _ => ?_
  rw [RegisterFile.flag, hkept f.address fun _ hne => hne rfl]
  rfl

/-- Putting a flag puts it. -/
theorem puts_put (hstored : (Site.at f.address).isStored) (on : Bool) :
    (put f on).Puts f (some on) := by
  intro r
  rw [wp_put hstored]
  exact fun _ _ => RegisterFile.flag_put_self r f on

/-- Putting a flag leaves others alone that lie apart from it. -/
theorem puts_put_of_apart {g : Flag} (hstored : (Site.at g.address).isStored) (h : f.Apart g)
    (on : Bool) : (put g on).Puts f none := by
  intro r
  rw [wp_put hstored]
  exact fun _ _ => RegisterFile.flag_put_of_apart h r on

end Procedure

namespace Loopback

/-! ## Parts of the receive half -/

/-- The parts of the receive half that some modes set and others leave alone. -/
inductive Part where
  /-- The radio frequency loopback switch. -/
  | radioSwitch
  /-- The power down of the LNA. -/
  | lnaOff
  /-- The test bit that powers the LNA down. -/
  | lnaDecodeOff
  /-- The power down of RXVGA1. -/
  | vga1Off
deriving Repr, DecidableEq

namespace Part

/-- The flag of a part. -/
def flag : Part → Flag
  | .radioSwitch => Loop.switch
  | .lnaOff => Rx.lnaOff
  | .lnaDecodeOff => Rx.lnaDecodeOff
  | .vga1Off => Rx.vga1Off

/-- What a mode sets the flag of a part to, if it does. -/
def setBy : Part → Mode → Option Bool
  | _, .none => some false
  | .vga1Off, .rf _ => some false
  | _, .rf _ => some true
  | .vga1Off, .baseband _ .rxLpf => some true
  | _, .baseband _ _ => none

theorem stored (part : Part) : (Site.at part.flag.address).isStored := by
  cases part <;> rfl

end Part

/-- The registers with the flags of the parts. -/
def partRegisters : List Address := [loopbackSwitch, rxPower, rxFrontEnd]

variable {α : Type}

/-- What writes to none of the registers with parts leaves all parts alone. -/
theorem puts_of_elsewhere (part : Part) {p : Procedure α}
    (h : p.WritesOnly fun address _ => address ∉ partRegisters) : p.Puts part.flag none := by
  have hmem : part.flag.address ∈ partRegisters := by cases part <;> decide
  exact puts_of_writesOnly (h.mono fun _ _ hout heq => hout (heq ▸ hmem))

/-- Setting one part leaves the others alone. -/
theorem puts_part (part other : Part) (on : Bool) :
    (put other.flag on).Puts part.flag (if part = other then some on else none) := by
  have hapart : part ≠ other → part.flag.Apart other.flag := by
    cases part <;> cases other <;> decide
  split
  · next h => exact h ▸ puts_put part.stored on
  · next h => exact puts_put_of_apart other.stored (hapart h) on

/-! ## A change of mode -/

/-- The mode of the filter is in other registers. -/
theorem puts_setMode (part : Part) (mode : LowPass.Mode) :
    (LowPass.setMode .rx mode).Puts part.flag none := by
  have hout : (Lpf.enable .rx).address ∉ partRegisters ∧ (Lpf.bypass .rx).address ∉ partRegisters :=
    by decide
  apply puts_of_elsewhere
  simp [LowPass.setMode, hout]

theorem puts_reviveFilter (part : Part) (found : LowPass.Mode) :
    (reviveFilter found).Puts part.flag none := by
  unfold reviveFilter
  split
  · exact puts_setMode part .normal
  · exact puts_pure ()

/-- Going back to a band leaves the parts alone, with the tuning in it. -/
theorem puts_restoreBand (part : Part) (h : Half) : (restoreBand h).Puts part.flag none := by
  have hout : ∀ address ∈ bandRegisters h, address ∉ partRegisters := by cases h <;> decide
  exact puts_of_elsewhere part ((writesOnly_restoreBand h).mono fun address _ hmem =>
    hout address hmem)

theorem puts_selectLna (part : Part) (lna : Amplifier.Lna) :
    (Amplifier.selectLna lna).Puts part.flag none :=
  puts_of_elsewhere part ((writesOnly_assign _ _).2 fun _ => by decide)

theorem puts_selectPowerAmp (part : Part) (pa : Amplifier.PowerAmp) :
    (Amplifier.selectPowerAmp pa).Puts part.flag none :=
  puts_of_elsewhere part ((writesOnly_modify _ _).2 fun _ => by decide)

/-- Setting up the receive half sets the parts that the mode sets, and no other. -/
theorem puts_prepareRx (part : Part) (mode : Mode) :
    (prepareRx mode).Puts part.flag (part.setBy mode) := by
  have hmode : (LowPass.mode .rx).Careful (fun address _ => address ∉ partRegisters)
      fun _ => True := LowPass.careful_mode .rx
  have hfilter := puts_of_elsewhere part hmode.writesOnly
  have hvga2 : (Power.enableRxvga2 true).Puts part.flag none :=
    puts_of_elsewhere part ((writesOnly_put _ _).2 fun _ => by decide)
  match mode with
  | .none =>
    have h := hfilter.bind fun filter => (puts_part part .vga1Off false).bind fun _ =>
      (puts_reviveFilter part filter).bind fun _ => hvga2.bind fun _ =>
        (puts_part part .radioSwitch false).bind fun _ =>
          ((puts_part part .lnaOff false).bind fun _ =>
            puts_part part .lnaDecodeOff false).bind fun _ => puts_restoreBand part .rx
    cases part <;> exact h
  | .baseband _ .rxVga2 =>
    have h := hfilter.bind fun _ => hvga2.bind fun _ => puts_setMode part .disabled
    cases part <;> exact h
  | .baseband _ .rxLpf =>
    have h := hfilter.bind fun filter => (puts_part part .vga1Off true).bind fun _ =>
      (puts_reviveFilter part filter).bind fun _ => hvga2
    cases part <;> exact h
  | .rf path =>
    have hbuffer : (assign (Pll.selOut .rx) path.code).Puts part.flag none :=
      puts_of_elsewhere part ((writesOnly_assign _ _).2 fun _ => by decide)
    have h := hfilter.bind fun filter => ((puts_part part .lnaOff true).bind fun _ =>
      puts_part part .lnaDecodeOff true).bind fun _ =>
        (puts_part part .vga1Off false).bind fun _ => (puts_reviveFilter part filter).bind fun _ =>
          hvga2.bind fun _ => hbuffer.bind fun _ => (puts_selectLna part path.lna).bind fun _ =>
            puts_part part .radioSwitch true
    cases part <;> exact h

/-- Setting up the transmit half leaves the parts of the receive half alone. -/
theorem puts_prepareTx (part : Part) (mode : Mode) : (prepareTx mode).Puts part.flag none := by
  cases mode with
  | baseband _ _ => exact puts_pure ()
  | rf _ => exact puts_selectPowerAmp part .aux
  | none => exact puts_restoreBand part .tx

/-- Apart from the receive half, a change of mode leaves the parts alone. -/
theorem puts_change (part : Part) (mode : Mode) :
    (change mode).Puts part.flag (part.setBy mode) := by
  have hswitches (mode : Mode) : (closeSwitches mode).Puts part.flag none := by
    have hout : part.flag.address ∉ switchRegisters := by cases part <;> decide
    intro r
    rw [wp_closeSwitches]
    intro _ _
    rw [RegisterFile.flag, get_switched hout]
    rfl
  have hlog : (log (.settingLoopback mode)).Puts part.flag none := fun _ _ _ => rfl
  have h := hlog.bind fun _ => (puts_selectPowerAmp part .none).bind fun _ =>
    (puts_selectLna part .none).bind fun _ => (hswitches .none).bind fun _ =>
      (puts_prepareRx part mode).bind fun _ => (puts_prepareTx part mode).bind fun _ =>
        hswitches mode
  simp only [Option.or_none, Option.none_or] at h
  exact h

/-- A change that ends well shows its mode. -/
theorem wp_change_shown (mode : Mode) (r : RegisterFile) :
    (change mode).wp none (fun result r' => ∀ u, result = .ok u → shown r' = mode) r := by
  have hne : loopbackControl ≠ basebandLoop := by decide
  have hprepare : (prepare mode).wp none (fun result _ => ∀ u, result = .ok u → True) r :=
    wp_mono (wp_true _ r) fun _ _ _ _ _ => trivial
  rw [change_eq]
  refine wp_bind_of_ok hprepare fun _ r' _ => ?_
  rw [wp_closeSwitches]
  intro _ _
  rw [shown, switched, RegisterFile.get_set_self, RegisterFile.get_set_of_ne _ hne,
    RegisterFile.get_set_self]
  exact Mode.decode_close mode _ _

/-! ## Histories -/

open Chip

/-- The commands that set some modes one after the other. -/
def visits (modes : List Mode) : List Command :=
  modes.map .setLoopback

/-- What the last mode sets that sets anything, and what was there before if none does. -/
theorem getLast?_setBy_cons (part : Part) (mode : Mode) (rest : List Mode) (before : Bool) :
    (((mode :: rest).filterMap part.setBy).getLast?).getD before =
      ((rest.filterMap part.setBy).getLast?).getD ((part.setBy mode).getD before) := by
  rw [List.filterMap_cons]
  cases part.setBy mode with
  | none => rfl
  | some value =>
    dsimp only
    rw [List.getLast?_cons]
    rfl

variable {c : Chip}

/-- A successful change shows its mode and takes every part to what the mode sets it to. -/
theorem change_step (hc : c.Obeys none) {mode : Mode}
    (hok : ((Command.setLoopback mode).procedure.run transport c).result.isOk) :
    let after := ((Command.setLoopback mode).procedure.run transport c).state
    after.Obeys none ∧ shown after.registers = mode ∧ ∀ part : Part,
      after.registers.flag part.flag = (part.setBy mode).getD (c.registers.flag part.flag) := by
  intro after
  have hstate : after = ((change mode).run transport c).state := state_acknowledge _ _ _
  have hresult : ((change mode).run transport c).result = .ok () := by
    cases hr : ((change mode).run transport c).result with
    | ok _ => rfl
    | error fault =>
      rw [Command.procedure, acknowledge, run_bind_of_error _ _ hr] at hok
      cases hok
  obtain ⟨hobeys, hshown⟩ := wp_run hc (wp_change_shown mode c.registers)
  rw [hstate]
  refine ⟨hobeys, hshown () hresult, fun part => ?_⟩
  exact (wp_run hc (puts_change part mode c.registers)).2 () hresult

/-- After successful changes the last mode is shown, and every part is as the last mode has set it
that sets it, or as it was before them if none does. -/
theorem after_visits {modes : List Mode} (hc : c.Obeys none)
    (hok : ∀ entry ∈ c.history (visits modes), entry.2.isOk) :
    shown (c.after (visits modes)).registers = modes.getLast?.getD (shown c.registers) ∧
      ∀ part : Part, (c.after (visits modes)).registers.flag part.flag =
        ((modes.filterMap part.setBy).getLast?).getD (c.registers.flag part.flag) := by
  induction modes generalizing c with
  | nil => exact ⟨rfl, fun _ => rfl⟩
  | cons mode rest ih =>
    obtain ⟨hfirst, hrest⟩ := List.forall_mem_cons.1 hok
    obtain ⟨hobeys, hshown, hparts⟩ := change_step hc hfirst
    obtain ⟨hlast, hset⟩ := ih hobeys hrest
    rw [show visits (mode :: rest) = .setLoopback mode :: visits rest from rfl, after_cons]
    refine ⟨?_, fun part => ?_⟩
    · rw [hlast, hshown, List.getLast?_cons]
      rfl
    · rw [hset, hparts, getLast?_setBy_cons]

/-- Once the chip has been in normal operation, every part of the receive half is as the last mode
has set it that sets it at all. The radio frequency loopback switch is on and the LNA is powered
down if a radio frequency mode has come after the last normal operation, whatever baseband modes
have come after that. RXVGA1 is powered down if a mode that ends at the receive filter has come
after the last normal operation and the last radio frequency mode, whatever other baseband modes
have come after that. -/
theorem parts_are_as_last_set (modes : List Mode) (c : Chip) (hread : c.failRead = none)
    (hwrite : c.failWrite = none)
    (hok : ∀ entry ∈ c.history (visits (.none :: modes)), entry.2.isOk) :
    let after := c.after (visits (.none :: modes))
    after.shows current = .ok (modes.getLast?.getD .none) ∧
      ∀ part : Part, ((Mode.none :: modes).filterMap part.setBy).getLast? =
        some (after.registers.flag part.flag) := by
  intro after
  have hc : c.Obeys none := ⟨hread, hwrite, fun _ hw => nomatch hw⟩
  obtain ⟨hshown, hset⟩ := after_visits hc hok
  refine ⟨?_, fun part => ?_⟩
  · rw [shows_current, hshown, List.getLast?_cons]
    rfl
  · -- normal operation sets every part, so there is a last mode that does
    rw [hset, show (Mode.none :: modes).filterMap part.setBy =
      false :: modes.filterMap part.setBy by cases part <;> rfl, List.getLast?_cons]
    rfl

/-- Two baseband modes later, the loopback switch is still on from a radio frequency mode. -/
theorem parts_are_as_last_set_switch_left_on :
    let modes : List Mode := [.rf .lna1, .baseband .txLpf .rxVga2, .baseband .txVga1 .rxLpf]
    let after := initial.after (visits (.none :: modes))
    after.shows current = .ok (.baseband .txVga1 .rxLpf) ∧
      after.registers.flag Loop.switch = true ∧ after.registers.flag Rx.vga1Off = true := by
  intro modes after
  have hok : ∀ entry ∈ initial.history (visits (.none :: modes)), entry.2.isOk := by
    decide +kernel
  obtain ⟨hshown, hset⟩ := parts_are_as_last_set modes initial rfl rfl hok
  exact ⟨hshown, (Option.some.inj (hset .radioSwitch)).symm,
    (Option.some.inj (hset .vga1Off)).symm⟩

/-- The mode alone does not settle the set-up. After a radio frequency mode a baseband mode has the
loopback switch on and the LNA powered down, and after one that ends at the receive filter, one that
ends at RXVGA2 has RXVGA1 powered down. -/
theorem set_up_depends_on_history :
    let mode : Mode := .baseband .txLpf .rxVga2
    let afterRf := initial.after (visits [.none, .rf .lna1, mode])
    let afterLpf := initial.after (visits [.none, .baseband .txLpf .rxLpf, mode])
    ((∀ entry ∈ initial.history (visits [.none, .rf .lna1, mode]), entry.2.isOk) ∧
      afterRf.shows current = .ok mode ∧ afterRf.registers.flag Loop.switch = true ∧
      afterRf.registers.flag Rx.lnaOff = true ∧ afterRf.registers.flag Rx.lnaDecodeOff = true ∧
      afterRf.registers.flag Rx.vga1Off = false) ∧
    (∀ entry ∈ initial.history (visits [.none, .baseband .txLpf .rxLpf, mode]), entry.2.isOk) ∧
      afterLpf.shows current = .ok mode ∧ afterLpf.registers.flag Loop.switch = false ∧
      afterLpf.registers.flag Rx.lnaOff = false ∧
      afterLpf.registers.flag Rx.lnaDecodeOff = false ∧
      afterLpf.registers.flag Rx.vga1Off = true := by
  intro mode afterRf afterLpf
  simp only [shows_current, Except.ok.injEq]
  decide +kernel

end Loopback

end Transceiver
