import Transceiver.Proofs.NormalOperation

/-!
# Leaving the loopback

While a loopback is engaged, frequencies may be changed and the amplifiers stay as they are.
Whatever has happened before, when the loopback is left the chip is in normal operation, with the
amplifiers and the output buffers of the frequencies that are programmed then. A half that has ever
been tuned keeps its frequency: what is programmed stands for a synthesized frequency ever after,
and such a frequency is synthesized again exactly.
-/

namespace Transceiver

open Procedure Register

variable {window : Option (Byte × Byte)}

/-! ## Tuned halves -/

namespace Synthesizer

/-- A half is programmed with the settings for some request. -/
def Tuned (h : Half) (r : RegisterFile) : Prop :=
  ∃ request, dividersOf h r = .ok (Divider.ofHz request)

/-- A half with the settings for a request shows the frequency that they synthesize. -/
theorem frequencyOf_ofHz {h : Half} {r : RegisterFile} {request : Nat}
    (hr : dividersOf h r = .ok (Divider.ofHz request)) :
    frequencyOf h r = .ok (Divider.synthesizedHz request) := by
  rw [frequencyOf, hr, Except.bind, Divider.hz?_ofHz, Except.mapError]

/-- Whether a half is programmed depends on the registers with its settings. -/
theorem Tuned.congr {h : Half} {r r' : RegisterFile} (ht : Tuned h r)
    (hkept : ∀ address ∈ settingsRegisters h, r'.get address = r.get address) : Tuned h r' := by
  obtain ⟨request, hr⟩ := ht
  exact ⟨request, (dividersOf_congr hkept).trans hr⟩

/-- What spares the settings of a half leaves it programmed as it was. -/
theorem keeps_of_spares {α : Type} {half : Half} {p : Procedure α}
    (hp : p.WritesOnly (SparesSettings half)) : p.Keeps window (Tuned half) :=
  fun r ht => wp_mono (wp_of_sparesSettings hp r) fun _ _ hkept => ht.congr hkept

/-- Tuning a half programs the settings for the request, and leaves the other half alone. -/
theorem keeps_setFrequency (half h : Half) (request : Nat) :
    (setFrequency h request).Keeps window (Tuned half) := by
  by_cases heq : h = half
  · subst heq
    exact fun r _ => wp_mono (wp_setFrequency_settings h request r) fun _ _ hs => ⟨request, hs.1⟩
  · have hspares : ∀ address ∈ programmed h, address ∉ settingsRegisters half := by
      cases h <;> cases half <;> first | exact absurd rfl heq | decide
    have hclock : clockEnable ∉ settingsRegisters half := by cases half <;> decide
    exact keeps_of_spares (writesOnly_setFrequency (fun address ha _ => hspares address ha)
      (fun _ => hclock) request)

/-- The band is selected outside the settings. -/
theorem keeps_selectBand (half h : Half) (hz : Nat) :
    (selectBand h hz).Keeps window (Tuned half) := by
  have hspares : paControl ∉ settingsRegisters half ∧ lnaControl ∉ settingsRegisters half := by
    cases half <;> decide
  have hcareful : (selectBand h hz).Careful (SparesSettings half) fun _ => True :=
    careful_selectBand (fun _ => hspares.1) (fun _ => hspares.2)
  exact keeps_of_spares hcareful.writesOnly

end Synthesizer

namespace Loopback

open Synthesizer

/-- Going back to a band keeps both halves programmed: the one that is tuned gets new settings, and
the other keeps its own. -/
theorem keeps_restoreBand (half h : Half) : (restoreBand h).Keeps window (Tuned half) := by
  have hread : (frequencyHz h).Careful (SparesSettings half) fun _ => True :=
    careful_frequencyHz trivial (fun _ => trivial) h
  exact (keeps_of_spares hread.writesOnly).bind fun hz =>
    (keeps_setFrequency half h hz).bind fun _ => keeps_selectBand half h hz

/-- The output buffer is not among the settings that stand for a frequency. -/
theorem keeps_selOut (half : Half) (code : BitVec 2) :
    (assign (Pll.selOut .rx) code).Keeps window (Tuned half) := by
  rintro r ⟨request, hr⟩
  rw [wp_assign rfl]
  refine ⟨request, ?_⟩
  rw [← hr]
  have hsel : (Pll.freqSel half).Apart (Pll.selOut .rx) := by cases half <;> decide
  have hne : ∀ address ∈ [(Pll.nintHigh half).address, (Pll.nfracHigh half).address,
      (Pll.nfracMid half).address, (Pll.nfracLow half).address],
      (Pll.selOut .rx).address ≠ address := by
    cases half <;> decide
  have hpacked : packedOf half (r.assign (Pll.selOut .rx) code) = packedOf half r := by
    simp only [packedOf]
    rw [RegisterFile.get_assign_of_ne (hne _ (by simp)), RegisterFile.get_assign_of_ne
      (hne _ (by simp)), RegisterFile.get_assign_of_ne (hne _ (by simp)),
      RegisterFile.get_assign_of_ne (hne _ (by simp))]
  rw [dividersOf, hpacked]
  exact congrArg (decode half _) (RegisterFile.field_assign_of_apart hsel r code)

/-- The path switches hold no settings. -/
theorem keeps_closeSwitches (half : Half) (mode : Mode) :
    (closeSwitches mode).Keeps window (Tuned half) := by
  have hspares : ∀ address ∈ settingsRegisters half, address ∉ switchRegisters := by
    cases half <;> decide
  intro r ht
  rw [wp_closeSwitches]
  exact ht.congr fun address ha => get_switched (hspares address ha) mode r

/-- What the receive half is powered up with is not among the settings of a half. -/
theorem keeps_of_powered {α : Type} (half : Half) {p : Procedure α}
    (hp : p.WritesOnly fun address _ => address ∈ poweredRegisters) :
    p.Keeps window (Tuned half) := by
  have hspares : ∀ address ∈ poweredRegisters, address ∉ settingsRegisters half := by
    cases half <;> decide
  exact keeps_of_spares (hp.mono fun address _ ha => hspares address ha)

theorem keeps_enableLna (half : Half) (on : Bool) :
    (Power.enableLna on).Keeps window (Tuned half) := by
  have hlna := writesOnly_put_powered (show Rx.lnaOff.address ∈ _ by decide) (!on)
  have hdecode := writesOnly_put_powered (show Rx.lnaDecodeOff.address ∈ _ by decide) (!on)
  exact (keeps_of_powered half hlna).bind fun _ => keeps_of_powered half hdecode

/-- Preparing the receive half may tune it, and may move the output buffer. Either way both halves
stay programmed. -/
theorem keeps_prepareRx (half : Half) (mode : Mode) :
    (prepareRx mode).Keeps window (Tuned half) := by
  have hmode : (LowPass.mode .rx).Careful (SparesSettings half) fun _ => True :=
    LowPass.careful_mode .rx
  have hlna : Rx.lna.address ∉ settingsRegisters half := by cases half <;> decide
  have hput {flag : Flag} (hflag : flag.address ∈ poweredRegisters) (on : Bool) :
      (put flag on).Keeps window (Tuned half) :=
    keeps_of_powered half (writesOnly_put_powered hflag on)
  have hvga1 (on : Bool) : (Power.enableRxvga1 on).Keeps window (Tuned half) :=
    hput (by decide) _
  have hvga2 (on : Bool) : (Power.enableRxvga2 on).Keeps window (Tuned half) :=
    hput (by decide) _
  have hswitch (on : Bool) : (Power.enableLoopbackSwitch on).Keeps window (Tuned half) :=
    hput (by decide) _
  have hrevive (found : LowPass.Mode) : (reviveFilter found).Keeps window (Tuned half) :=
    keeps_of_powered half (writesOnly_reviveFilter found)
  have hdisable : (LowPass.setMode .rx .disabled).Keeps window (Tuned half) :=
    keeps_of_powered half (writesOnly_setMode .disabled)
  have hselect (lna : Amplifier.Lna) : (Amplifier.selectLna lna).Keeps window (Tuned half) :=
    keeps_of_spares ((writesOnly_assign _ _).2 fun _ => hlna)
  refine (keeps_of_spares hmode.writesOnly).bind fun filter => ?_
  rcases mode with _ | ⟨_, _ | _⟩ | path
  · exact (hvga1 true).bind fun _ => (hrevive filter).bind fun _ => (hvga2 true).bind fun _ =>
      (hswitch false).bind fun _ => (keeps_enableLna half true).bind fun _ =>
        keeps_restoreBand half .rx
  · exact (hvga2 true).bind fun _ => hdisable
  · exact (hvga1 false).bind fun _ => (hrevive filter).bind fun _ => hvga2 true
  · exact (keeps_enableLna half false).bind fun _ => (hvga1 true).bind fun _ =>
      (hrevive filter).bind fun _ => (hvga2 true).bind fun _ =>
        (keeps_selOut half path.code).bind fun _ => (hselect path.lna).bind fun _ => hswitch true

theorem keeps_selectPowerAmp (half : Half) (pa : Amplifier.PowerAmp) :
    (Amplifier.selectPowerAmp pa).Keeps window (Tuned half) := by
  have hpa : paControl ∉ settingsRegisters half := by cases half <;> decide
  exact keeps_of_spares ((writesOnly_modify _ _).2 fun _ => hpa)

/-- Preparing the transmit half keeps both halves programmed as well. -/
theorem keeps_prepareTx (half : Half) (mode : Mode) :
    (prepareTx mode).Keeps window (Tuned half) := by
  match mode with
  | .baseband _ _ => exact keeps_pure ()
  | .rf _ => exact keeps_selectPowerAmp half .aux
  | .none => exact keeps_restoreBand half .tx

/-- Both halves stay programmed in every change of the loopback, one that fails too. -/
theorem keeps_change (half : Half) (mode : Mode) : (change mode).Keeps window (Tuned half) := by
  have hlna : Rx.lna.address ∉ settingsRegisters half := by cases half <;> decide
  have hsilent : (Amplifier.selectLna .none).Keeps window (Tuned half) :=
    keeps_of_spares ((writesOnly_assign _ _).2 fun _ => hlna)
  refine Keeps.bind (fun _ ht => ht) fun _ => ?_
  refine (keeps_selectPowerAmp half .none).bind fun _ => hsilent.bind fun _ => ?_
  refine (keeps_closeSwitches half .none).bind fun _ => ?_
  exact (keeps_prepareRx half mode).bind fun _ => (keeps_prepareTx half mode).bind fun _ =>
    keeps_closeSwitches half mode

end Loopback

/-! ## Sessions -/

/-- Whether a command changes the loopback, a frequency or a band. -/
def Command.retunes : Command → Bool
  | .setLoopback _ | .setFrequency _ _ | .selectBand _ _ => true
  | _ => false

/-- The commands that change a loopback, a frequency or a band keep both halves programmed. -/
theorem Command.keeps_of_retunes {command : Command} (hretunes : command.retunes) (half : Half) :
    command.procedure.Keeps window (Synthesizer.Tuned half) := by
  cases command with
  | setLoopback mode => exact (Loopback.keeps_change half mode).bind fun _ => keeps_pure _
  | setFrequency h request => exact (Synthesizer.keeps_setFrequency half h request).map _
  | selectBand h hz => exact (Synthesizer.keeps_selectBand half h hz).bind fun _ => keeps_pure _
  | _ => exact absurd hretunes (by simp [Command.retunes])

namespace Chip

open Synthesizer

/-- A half that has been tuned in a session is programmed with the settings for some request at the
end of it. -/
theorem tuned_after {commands : List Command} (hcommands : ∀ command ∈ commands, command.retunes)
    {c : Chip} (hc : c.Obeys window) {h : Half} {hz : Nat} (hmem : .setFrequency h hz ∈ commands) :
    Tuned h (c.after commands).registers := by
  obtain ⟨first, last, rfl⟩ := List.append_of_mem hmem
  have htuned : (Command.setFrequency h hz).procedure.wp window (fun _ r' => Tuned h r')
      (c.after first).registers :=
    wp_map.2 (wp_mono (wp_setFrequency_settings h hz _) fun _ _ hs => ⟨hz, hs.1⟩)
  obtain ⟨hobeys, hset⟩ := wp_run (hc.after first) htuned
  have hlast : ∀ command ∈ last, command.procedure.Keeps window (Tuned h) := fun command hin =>
    Command.keeps_of_retunes (hcommands command (by simp [hin])) h
  rw [after_append, after_cons]
  exact (hobeys.after_keeps hlast hset).2

end Chip

namespace Loopback

open Synthesizer Chip

/-- The chip is in normal operation: no loopback path is closed, the receive half is powered up, and
the amplifier and the output buffer of each half are those of the frequency that it shows. -/
structure NormalOperation (c : Chip) : Prop where
  pathsOpen : AllOpen c.registers
  switchOff : c.registers.flag Loop.switch = false
  lnaPowered : c.registers.flag Rx.lnaOff = false ∧ c.registers.flag Rx.lnaDecodeOff = false
  rxvga1Enabled : c.registers.flag Rx.vga1Off = false
  rxvga2Enabled : c.registers.flag Rx.vga2Enable = true
  filter : c.shows (LowPass.mode .rx) = .ok .normal ∨ c.shows (LowPass.mode .rx) = .ok .bypassed
  powerAmp : ∃ hz, c.shows (frequencyHz .tx) = .ok hz ∧
    c.shows Amplifier.powerAmp = .ok (if highBandHz ≤ hz then .pa2 else .pa1)
  lna : ∃ hz, c.shows (frequencyHz .rx) = .ok hz ∧
    c.shows Amplifier.lna = .ok (if highBandHz ≤ hz then .lna2 else .lna1)
  buffers : ∀ h, ∃ hz, c.shows (frequencyHz h) = .ok hz ∧
    c.registers.field (Pll.selOut h) = if highBandHz ≤ hz then 2 else 1

/-- The frequency that the chip shows is that of its registers. -/
theorem shows_frequencyHz (c : Chip) (h : Half) :
    c.shows (frequencyHz h) = frequencyOf h c.registers :=
  shows_of_wp ((wp_frequencyHz h _).2 rfl)

/-- What is chosen for the requested frequency is right for the one that is programmed. -/
theorem normalOperation_of_restored {c : Chip} (hopen : AllOpen c.registers)
    (hpowered : Powered c.registers) (hrestored : ∀ h, ∃ hz, Restored h hz c.registers) :
    NormalOperation c := by
  -- the amplifier is chosen by the request and read by what comes back, which are in the same band
  have hband (h : Half) : ∃ hz, c.shows (frequencyHz h) = .ok hz ∧ Amplified h hz c.registers ∧
      c.registers.field (Pll.selOut h) = if highBandHz ≤ hz then 2 else 1 := by
    obtain ⟨hz, hr⟩ := hrestored h
    have hsame := Divider.highBand_synthesizedHz hz
    refine ⟨Divider.synthesizedHz hz, ?_, ?_, ?_⟩
    · rw [shows_frequencyHz, frequencyOf_ofHz hr.settings]
    · have hamplified := hr.amplifier
      unfold Amplified at hamplified ⊢
      simpa only [hsame] using hamplified
    · rw [hr.buffer, outputBuffer]
      simp only [hsame]
      grind
  have hmode : c.shows (LowPass.mode .rx) = LowPass.modeOf .rx c.registers :=
    shows_of_wp ((LowPass.wp_mode .rx _).2 rfl)
  refine ⟨hopen, hpowered.switchOff, ⟨hpowered.lna, hpowered.lnaDecode⟩, hpowered.rxvga1,
    hpowered.rxvga2, hmode ▸ hpowered.filter, ?_, ?_, fun h => ?_⟩
  · obtain ⟨hz, hshows, hpa, -⟩ := hband .tx
    refine ⟨hz, hshows, shows_of_wp ((Amplifier.wp_powerAmp _).2 ?_)⟩
    rw [Amplifier.powerAmpOf, show Amplifier.PowerAmp.decode? _ = _ from hpa]
  · obtain ⟨hz, hshows, hlna, -⟩ := hband .rx
    refine ⟨hz, hshows, shows_of_wp ((Amplifier.wp_lna _).2 ?_)⟩
    exact congrArg Except.ok hlna
  · obtain ⟨hz, hshows, -, hbuffer⟩ := hband h
    exact ⟨hz, hshows, hbuffer⟩

/-- Whenever the loopback is left, whatever loopbacks, frequencies and bands have been set before
and whether that went well or not, the chip is in normal operation afterwards. A half that has been
tuned before shows the same frequency after the change as it did before. -/
theorem change_none_restores (commands : List Command)
    (hcommands : ∀ command ∈ commands, command.retunes) (c : Chip) (hread : c.failRead = none)
    (hwrite : c.failWrite = none) :
    let before := c.after commands
    let o := (change .none).run transport before
    o.result = .ok () → NormalOperation o.state ∧
      ∀ h request, .setFrequency h request ∈ commands → ∃ hz,
        before.shows (frequencyHz h) = .ok hz ∧ o.state.shows (frequencyHz h) = .ok hz := by
  intro before o hok
  have hc : c.Obeys none := ⟨hread, hwrite, fun _ hw => nomatch hw⟩
  obtain ⟨-, hafter⟩ := wp_run (hc.after commands) (wp_change_none before.registers)
  obtain ⟨hopen, hpowered, hhalves⟩ := hafter () hok
  refine ⟨normalOperation_of_restored hopen hpowered fun h => ?_, fun h request hmem => ?_⟩
  · obtain ⟨hz, -, hr⟩ := hhalves h
    exact ⟨hz, hr⟩
  · obtain ⟨hz, hfreq, hr⟩ := hhalves h
    obtain ⟨tuned, ht⟩ := tuned_after hcommands hc hmem
    -- the frequency that is read back has been synthesized before, so it is synthesized exactly
    have hsame : hz = Divider.synthesizedHz tuned :=
      Except.ok.inj (hfreq.symm.trans (frequencyOf_ofHz ht))
    refine ⟨hz, (shows_frequencyHz _ h).trans hfreq, ?_⟩
    rw [shows_frequencyHz, frequencyOf_ofHz hr.settings, hsame, Divider.synthesizedHz_synthesizedHz]

/-- A receive frequency of the high band, set while a loopback to the first LNA is engaged, is the
one that normal operation is restored for. -/
theorem change_none_restores_high_band :
    let commands : List Command := [.setLoopback (.rf .lna1), .setFrequency .rx 2400000000]
    let before := initial.after commands
    let o := (change .none).run transport before
    before.shows Amplifier.lna = .ok .lna1 ∧ NormalOperation o.state ∧ ∃ hz,
      before.shows (frequencyHz .rx) = .ok hz ∧ o.state.shows (frequencyHz .rx) = .ok hz := by
  have hok : ((change .none).run transport (initial.after
      [.setLoopback (.rf .lna1), .setFrequency .rx 2400000000])).result = .ok () := by
    decide +kernel
  obtain ⟨hnormal, hsame⟩ := change_none_restores
    [.setLoopback (.rf .lna1), .setFrequency .rx 2400000000] (by decide) initial rfl rfl hok
  exact ⟨by decide +kernel, hnormal, hsame .rx 2400000000 (by simp)⟩

end Loopback

end Transceiver
