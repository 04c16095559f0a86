import Transceiver.Proofs.CalibrationRestoration
import Transceiver.Proofs.Settings

/-!
# A calibration keeps every setting

On a chip that refuses no access, all that a calibration disturbs is put back, whether its loops
finish or not. The settings that it does not reach stay as they are. The gains of the front end and
the input of the ADC are read off registers that it writes, and these show the same in the end.
-/

namespace Transceiver

open Procedure Register Chip

variable {window : Option (Byte × Byte)}

/-! ## A bus that refuses nothing -/

namespace Procedure

variable {α : Type}

/-- Behind a bus that refuses nothing, a run ends as without it. -/
theorem run_bus_open (p : Procedure α) (s : Nat × Chip) :
    (p.run (bus fun _ => false) s).result = (p.run transport s.2).result ∧
      (p.run (bus fun _ => false) s).state.2 = (p.run transport s.2).state := by
  induction p generalizing s with
  | done result => exact ⟨rfl, rfl⟩
  | read address next ih => exact ih _ (s.1 + 1, (s.2.read address).2)
  | write address value next ih => exact ih _ (s.1 + 1, (s.2.write address value).2)
  | note entry next ih | pause microseconds next ih => exact ih s

/-- If the chip refuses nothing either, no access is refused at all. -/
theorem accepted_of_obeys {s : Nat × Chip} (hs : s.2.Obeys window) (p : Procedure α) :
    (∀ e ∈ (p.run (bus fun _ => false) s).events, e.isRefused = false) ∧
      (p.run (bus fun _ => false) s).state.2.Obeys window := by
  induction p generalizing s with
  | done result => exact ⟨by simp [run], hs⟩
  | read address next ih =>
    obtain ⟨value, c', hread, -, hc', -⟩ := hs.read address
    have hbus : (bus fun _ => false).read address s = (some value, s.1 + 1, c') := by
      simp [bus, Transport.refusing, transport, hread]
    obtain ⟨hevents, hstate⟩ := ih (some value) (s := (s.1 + 1, c')) hc'
    simp only [run, hbus]
    exact ⟨List.forall_mem_cons.2 ⟨rfl, hevents⟩, hstate⟩
  | write address value next ih =>
    obtain ⟨c', hwrite, hc', -⟩ := hs.write address value
    have hbus : (bus fun _ => false).write address value s = (true, s.1 + 1, c') := by
      simp [bus, Transport.refusing, transport, hwrite]
    obtain ⟨hevents, hstate⟩ := ih true (s := (s.1 + 1, c')) hc'
    simp only [run, hbus]
    exact ⟨List.forall_mem_cons.2 ⟨rfl, hevents⟩, hstate⟩
  | note entry next ih | pause microseconds next ih =>
    obtain ⟨hevents, hstate⟩ := ih hs
    simp only [run]
    exact ⟨List.forall_mem_cons.2 ⟨rfl, hevents⟩, hstate⟩

/-- The chip obeys after any steps. -/
theorem obeys_stateAfter {s : Nat × Chip} (hs : s.2.Obeys window) (ps : List (Procedure Unit)) :
    (stateAfter (bus fun _ => false) ps s).2.Obeys window := by
  induction ps generalizing s with
  | nil => exact hs
  | cons p rest ih => exact ih (accepted_of_obeys hs p).2

end Procedure

namespace Calibration

/-! ## Restoration -/

/-- Every item of a block has a step in its clean-up. -/
theorem exists_step_of_item {b : Block} {r : RegisterFile} {item : Item} (h : item ∈ b.items) :
    ∃ before p after, cleanUpSteps b (Backup.of b r) = before ++ (item, p) :: after := by
  rw [← cleanUp_items b r] at h
  obtain ⟨step, hmem, rfl⟩ := List.mem_map.1 h
  obtain ⟨before, after, heq⟩ := List.append_of_mem hmem
  exact ⟨before, step.2, after, heq⟩

/-- If nothing is refused, a calibration writes nothing at all or restores every item. -/
theorem calibrate_restores {c : Chip} (hc : c.Obeys window) (b : Block) :
    let after := ((calibrate b).run transport c).state
    after.registers = c.registers ∨
      c.registers.AgreeOutside b.reach after.registers ∧
        ∀ item ∈ b.items, item.Restored c after := by
  intro after
  have hafter : ((calibrate b).run (bus fun _ => false) (0, c)).state.2 = after :=
    (run_bus_open (calibrate b) (0, c)).2
  obtain ⟨haccepted, hobeys⟩ := accepted_of_obeys (s := (0, c)) hc (takeBackup b)
  -- on a chip that refuses nothing a backup can fail by an unknown gain only
  cases atomic_takeBackup (fun _ => false) b (0, c) with
  | refused refusal result registers =>
    obtain ⟨e, he, href⟩ := refusal
    simp [haccepted e he] at href
  | accepted _ result registers =>
    by_cases hgain : GainUnknown b c.registers
    · rw [if_pos hgain] at result
      rw [run_calibrate_of_error _ result] at hafter
      exact .inl ((congrArg Chip.registers hafter).symm.trans registers)
    · rw [if_neg hgain] at result
      have hstate := (run_calibrate_of_ok (bus fun _ => false) result).1
      rw [hstate] at hafter
      rw [← hafter]
      have hfront (found : FrontEnd) (h : (Backup.of b c.registers).frontEnd = some found) :
          b.usesFrontEnd := usesFrontEnd_of_backup h
      have hbody := within_setUpAndConverge hfront (fun _ => false)
        ((takeBackup b).run (bus fun _ => false) (0, c)).state
      rw [registers] at hbody
      have hbodyObeys := (accepted_of_obeys hobeys (setUpAndConverge b (Backup.of b c.registers))).2
      refine .inr ⟨?_, fun item hitem => ?_⟩
      · exact hbody.trans (agreeOutside_stateAfter _ (within_cleanUp hfront) _)
      · obtain ⟨before, p, rest, hsteps⟩ := exists_step_of_item (r := c.registers) hitem
        have hown := (accepted_of_obeys (obeys_stateAfter hbodyObeys (before.map Prod.snd)) p).1
        exact restored_of_accepted _ hgain hsteps hbody hown

/-! ## Settings -/

/-- The settings that are read off registers which the calibration of a block writes. -/
def Block.disturbs (b : Block) : List Setting :=
  .sampling :: if b.usesFrontEnd then [.gain .lna, .gain (.db .rxvga1), .gain (.db .rxvga2)] else []

/-- Every other setting is out of reach. -/
theorem Block.reach_apart {b : Block} {setting : Setting} (h : setting ∉ b.disturbs) :
    ∀ bits ∈ b.reach, ∀ others ∈ setting.footprint, bits.Apart others := by
  have hall : ∀ setting ∈ Setting.all, setting ∉ b.disturbs →
      ∀ bits ∈ b.reach, ∀ others ∈ setting.footprint, bits.Apart others := by
    cases b <;> decide +kernel
  exact hall setting setting.mem_all h

/-- Of the two bits that show the input of the ADC, the enable of RXVGA2 is out of reach. -/
theorem Block.reach_apart_vga2Enable (b : Block) :
    ∀ bits ∈ b.reach, ∀ others ∈ [Rx.vga2Enable.bits], bits.Apart others := by
  cases b <;> decide +kernel

theorem Block.frontEndItems_mem {b : Block} (hb : b.usesFrontEnd) :
    ∀ item ∈ frontEndItems, item ∈ b.items := by
  cases b with
  | lpfTuning | txLpf => cases hb
  | rxLpf | rxvga2 => decide

theorem Block.clocks_mem_items (b : Block) : .clocks ∈ b.items := by
  cases b <;> decide

/-- What is disturbed shows the same again once it has been restored. -/
theorem shown_of_restored {b : Block} {before after : Chip}
    (hreach : before.registers.AgreeOutside b.reach after.registers)
    (hrestored : ∀ item ∈ b.items, item.Restored before after) {setting : Setting}
    (h : setting ∈ b.disturbs) :
    setting.shown after.registers = setting.shown before.registers := by
  unfold Block.disturbs at h
  -- the input of the ADC is half in the clocks, which are restored, and half in a bit that is not
  -- touched
  rcases List.mem_cons.1 h with rfl | h
  · have hclocks : after.registers.get clockEnable = before.registers.get clockEnable :=
      hrestored .clocks b.clocks_mem_items
    have hinput : after.registers.flag Clock.externalAdc =
        before.registers.flag Clock.externalAdc := congrArg Clock.externalAdc.isSet hclocks
    have henable : after.registers.flag Rx.vga2Enable = before.registers.flag Rx.vga2Enable :=
      (hreach.agreeOn b.reach_apart_vga2Enable).flag_eq List.mem_cons_self
    rw [Setting.shown, Setting.shown, hinput, henable]
  · split at h
    · next hb =>
      have hitem (item : Item) (hmem : item ∈ frontEndItems) : item.Restored before after :=
        hrestored item (Block.frontEndItems_mem hb item hmem)
      simp only [List.mem_cons, List.not_mem_nil, or_false] at h
      rcases h with rfl | rfl | rfl
      · have hlna : after.registers.get lnaControl = before.registers.get lnaControl :=
          hitem .lnaGain (by decide)
        have hgain : after.registers.field Rx.lnaGain = before.registers.field Rx.lnaGain :=
          congrArg Rx.lnaGain.get hlna
        rw [Setting.shown, Setting.shown, Gain.gainOf, Gain.gainOf, hgain]
      · have hdb : after.shows (Gain.readDb .rxvga1) = before.shows (Gain.readDb .rxvga1) :=
          hitem .rxvga1 (by decide)
        rw [shows_readDb .rxvga1 rfl, shows_readDb .rxvga1 rfl] at hdb
        rw [Setting.shown, Setting.shown, Gain.gainOf, Gain.gainOf, Except.ok.inj hdb]
      · have hdb : after.shows (Gain.readDb .rxvga2) = before.shows (Gain.readDb .rxvga2) :=
          hitem .rxvga2 (by decide)
        rw [shows_readDb .rxvga2 rfl, shows_readDb .rxvga2 rfl] at hdb
        rw [Setting.shown, Setting.shown, Gain.gainOf, Gain.gainOf, Except.ok.inj hdb]
    · cases h

/-- A calibration keeps every setting, however it ends. -/
theorem calibrate_keeps_settings {c : Chip} (hc : c.Obeys window) (b : Block) (setting : Setting) :
    ((calibrate b).run transport c).state.settings setting = c.settings setting := by
  rw [settings_eq, settings_eq]
  rcases calibrate_restores hc b with hsame | ⟨hreach, hrestored⟩
  · rw [hsame]
  · by_cases hdisturbed : setting ∈ b.disturbs
    · exact shown_of_restored hreach hrestored hdisturbed
    · exact Setting.shown_congr (hreach.agreeOn (Block.reach_apart hdisturbed))

end Calibration

end Transceiver
