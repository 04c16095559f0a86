import Transceiver.Proofs.NormalOperation
import Transceiver.Proofs.Reach

/-!
# Settings

What the getters show is a record of settings. Each getter reads a few bits of the register file,
the footprint of its setting, and shows the same as long as these stay the same. Many settings live
in registers that they share, but no two of them share a bit.
-/

namespace Transceiver

open Procedure Register

variable {window : Option (Byte × Byte)}

/-- A setting that can be read back. -/
inductive Setting where
  | powerAmp
  | lna
  | gain (stage : GainStage)
  | filterMode (half : Half)
  | bandwidth (half : Half)
  | sampling
  | dividers (half : Half)
  | loopback
deriving Repr, DecidableEq

namespace Setting

/-- Every setting. -/
def all : List Setting := [
  .powerAmp, .lna, .gain .lna, .gain (.db .rxvga1), .gain (.db .rxvga2), .gain (.db .txvga1),
  .gain (.db .txvga2), .filterMode .rx, .filterMode .tx, .bandwidth .rx, .bandwidth .tx, .sampling,
  .dividers .rx, .dividers .tx, .loopback]

theorem mem_all (setting : Setting) : setting ∈ all := by
  rcases setting with _ | _ | ⟨_ | _ | _⟩ | ⟨_ | _⟩ | ⟨_ | _⟩ | _ | ⟨_ | _⟩ | _ <;> decide

/-- The command that reads a setting. -/
def getter : Setting → Command
  | .powerAmp => .powerAmp
  | .lna => .lna
  | .gain stage => .gain stage
  | .filterMode half => .filterMode half
  | .bandwidth half => .bandwidth half
  | .sampling => .sampling
  | .dividers half => .dividers half
  | .loopback => .loopback

end Setting

/-- What the getters show on a chip. -/
def Chip.settings (c : Chip) (setting : Setting) : Except Fault Reply :=
  c.shows setting.getter.procedure

/-! ## What registers show -/

namespace Gain

/-- The gain of a stage that registers show. -/
def gainOf (r : RegisterFile) : GainStage → Except Fault Gain
  | .lna =>
    if Amplifier.LnaGain.ofBits (r.field Rx.lnaGain) = .unknown then .error .unexpectedState
    else .ok (.lna (Amplifier.LnaGain.ofBits (r.field Rx.lnaGain)))
  | .db stage => .ok (.db stage (stage.decode (r.get stage.address)))

theorem stored_stage (stage : DbStage) : (Site.at stage.address).isStored := by
  cases stage <;> rfl

/-- A gain is read off the register of its stage. -/
theorem wp_read (stage : GainStage) (r : RegisterFile)
    {post : Except Fault Gain → RegisterFile → Prop} :
    (read stage).wp window post r ↔ post (gainOf r stage) r := by
  cases stage with
  | lna =>
    rw [read, wp_map, readLna_eq, wp_bind, wp_load rfl, between_ok]
    unfold gainOf
    split <;> rfl
  | db stage =>
    rw [read, wp_map, readDb, wp_map, wp_readByte (stored_stage stage)]
    rfl

end Gain

namespace LowPass

theorem stored_bandwidth (h : Half) : (Site.at (Lpf.bandwidth h).address).isStored :=
  stored_enable h

/-- The bandwidth is read off its field: every code of it is one. -/
theorem wp_bandwidth (h : Half) (r : RegisterFile)
    {post : Except Fault Bandwidth → RegisterFile → Prop} :
    (LowPass.bandwidth h).wp window post r ↔
      post (.ok (Bandwidth.ofCode (r.field (Lpf.bandwidth h)))) r := by
  rw [LowPass.bandwidth, wp_map, wp_load (stored_bandwidth h)]
  rfl

end LowPass

/-- The input is read off two flags in two registers. -/
theorem Sampling.wp_selected (r : RegisterFile)
    {post : Except Fault Sampling → RegisterFile → Prop} :
    selected.wp window post r ↔
      post (.ok (ofBits (r.flag Clock.externalAdc) (r.flag Rx.vga2Enable))) r := by
  rw [selected, wp_bind, wp_readByte rfl, between_ok, wp_bind, wp_readByte rfl, between_ok, wp_pure]
  rfl

namespace Setting

/-- What the getter of a setting shows by what the registers hold. -/
def shown (r : RegisterFile) : Setting → Except Fault Reply
  | .powerAmp => (Amplifier.powerAmpOf r).map .powerAmp
  | .lna => .ok (.lna (Amplifier.Lna.ofBits (r.field Rx.lna)))
  | .gain stage => (Gain.gainOf r stage).map .gain
  | .filterMode half => (LowPass.modeOf half r).map .filterMode
  | .bandwidth half => .ok (.bandwidth (LowPass.Bandwidth.ofCode (r.field (Lpf.bandwidth half))))
  | .sampling =>
    .ok (.sampling (Sampling.ofBits (r.flag Clock.externalAdc) (r.flag Rx.vga2Enable)))
  | .dividers half => (Synthesizer.dividersOf half r).map .dividers
  | .loopback => .ok (.loopback (Loopback.shown r))

/-- A getter changes no register, and what it shows is a matter of the registers alone. -/
theorem wp_getter (setting : Setting) (r : RegisterFile)
    {post : Except Fault Reply → RegisterFile → Prop} :
    setting.getter.procedure.wp window post r ↔ post (setting.shown r) r := by
  cases setting with
  | powerAmp => exact wp_map.trans (Amplifier.wp_powerAmp r)
  | lna => exact wp_map.trans (Amplifier.wp_lna r)
  | gain stage => exact wp_map.trans (Gain.wp_read stage r)
  | filterMode half => exact wp_map.trans (LowPass.wp_mode half r)
  | bandwidth half => exact wp_map.trans (LowPass.wp_bandwidth half r)
  | sampling => exact wp_map.trans (Sampling.wp_selected r)
  | dividers half => exact wp_map.trans (Synthesizer.wp_dividers half r)
  | loopback => exact wp_map.trans (Loopback.wp_current r)

end Setting

/-- What the getters show on a chip is what its registers show. -/
theorem Chip.settings_eq (c : Chip) (setting : Setting) :
    c.settings setting = setting.shown c.registers :=
  shows_of_wp ((setting.wp_getter _).2 rfl)

/-! ## Footprints -/

namespace Bits

/-- Some bits have none in common with others. -/
def Apart (bits others : Bits) : Prop :=
  bits.address ≠ others.address ∨ bits.offset + bits.width ≤ others.offset ∨
    others.offset + others.width ≤ bits.offset

instance (bits others : Bits) : Decidable (bits.Apart others) :=
  inferInstanceAs (Decidable (_ ∨ _))

/-- Bits that lie apart from others cover none of them. -/
theorem Apart.not_covers {bits others : Bits} (h : bits.Apart others) {address : Address} {i : Nat}
    (hcovers : others.Covers address i) : ¬ bits.Covers address i := by
  obtain ⟨ha, hfrom, hto⟩ := hcovers
  rintro ⟨ha', hfrom', hto'⟩
  rcases h with hne | hbelow | habove
  · exact hne (ha'.trans ha.symm)
  · omega
  · omega

end Bits

namespace RegisterFile

/-- Two register files agree in some bits. -/
def AgreeOn (footprint : List Bits) (r r' : RegisterFile) : Prop :=
  ∀ address i, (∃ bits ∈ footprint, bits.Covers address i) →
    (r'.get address).getLsbD i = (r.get address).getLsbD i

variable {reach footprint : List Bits} {r r' : RegisterFile}

/-- Register files that agree outside some bits agree in all bits apart from these. -/
theorem AgreeOutside.agreeOn (h : AgreeOutside reach r r')
    (hapart : ∀ bits ∈ reach, ∀ others ∈ footprint, bits.Apart others) :
    AgreeOn footprint r r' := by
  rintro address i ⟨others, hmem, hcovers⟩
  exact h address i fun bits hbits => (hapart bits hbits others hmem).not_covers hcovers

/-- Fields in the bits of agreement have the same value. -/
theorem AgreeOn.field_eq (h : AgreeOn footprint r r') {w : Nat} {f : BitField w}
    (hf : f.bits ∈ footprint) : r'.field f = r.field f := by
  apply BitVec.eq_of_getLsbD_eq
  intro i hi
  rw [field, field, BitField.getLsbD_get, BitField.getLsbD_get]
  have hcovers : f.bits.Covers f.address (f.offset + i) :=
    ⟨rfl, Nat.le_add_right _ _, Nat.add_lt_add_left hi _⟩
  rw [h f.address (f.offset + i) ⟨f.bits, hf, hcovers⟩]

/-- So have flags. -/
theorem AgreeOn.flag_eq (h : AgreeOn footprint r r') {f : Flag} (hf : f.bits ∈ footprint) :
    r'.flag f = r.flag f :=
  congrArg (· == 1#1) (h.field_eq hf)

/-- So have whole registers. -/
theorem AgreeOn.get_eq (h : AgreeOn footprint r r') {address : Address}
    (ha : .register address ∈ footprint) : r'.get address = r.get address := by
  apply BitVec.eq_of_getLsbD_eq
  intro i hi
  exact h address i ⟨.register address, ha, rfl, Nat.zero_le i, by simpa [Bits.register] using hi⟩

end RegisterFile

namespace Setting

open RegisterFile

/-- The bits that the getter of a setting depends on. -/
def footprint : Setting → List Bits
  | .powerAmp => [Tx.paEnable.bits, Tx.auxPaOff.bits]
  | .lna => [Rx.lna.bits]
  | .gain .lna => [Rx.lnaGain.bits]
  | .gain (.db stage) => [.register stage.address]
  | .filterMode half => [(Lpf.enable half).bits, (Lpf.bypass half).bits]
  | .bandwidth half => [(Lpf.bandwidth half).bits]
  | .sampling => [Clock.externalAdc.bits, Rx.vga2Enable.bits]
  | .dividers half => (Synthesizer.settingsRegisters half).map Bits.register
  | .loopback => [.register loopbackControl, .register basebandLoop]

/-- A setting shows the same as long as its footprint stays the same. -/
theorem shown_congr {setting : Setting} {r r' : RegisterFile}
    (h : AgreeOn setting.footprint r r') : setting.shown r' = setting.shown r := by
  -- each getter reads the fields in its footprint and nothing else
  cases setting with
  | powerAmp =>
    have henable : r'.field Tx.paEnable = r.field Tx.paEnable := h.field_eq (by decide)
    have haux : r'.flag Tx.auxPaOff = r.flag Tx.auxPaOff := h.flag_eq (by decide)
    have hdecode : Amplifier.PowerAmp.decode? (r'.get paControl) =
        Amplifier.PowerAmp.decode? (r.get paControl) := by
      unfold Amplifier.PowerAmp.decode?
      rw [show Tx.paEnable.get (r'.get paControl) = _ from henable,
        show Tx.auxPaOff.isSet (r'.get paControl) = _ from haux]
      rfl
    rw [shown, Amplifier.powerAmpOf, hdecode]
    rfl
  | lna => rw [shown, shown, h.field_eq (by decide)]
  | gain stage =>
    cases stage with
    | lna => rw [shown, shown, Gain.gainOf, Gain.gainOf, h.field_eq (by decide)]
    | db stage => rw [shown, shown, Gain.gainOf, Gain.gainOf, h.get_eq List.mem_cons_self]
  | filterMode half =>
    have hmode : LowPass.modeOf half r' = LowPass.modeOf half r :=
      LowPass.modeOf_congr (h.flag_eq (by simp [footprint])) (h.flag_eq (by simp [footprint]))
    rw [shown, shown, hmode]
  | bandwidth half => rw [shown, shown, h.field_eq List.mem_cons_self]
  | sampling => rw [shown, shown, h.flag_eq (by decide), h.flag_eq (by decide)]
  | dividers half =>
    have hdividers : Synthesizer.dividersOf half r' = Synthesizer.dividersOf half r :=
      Synthesizer.dividersOf_congr fun address ha => h.get_eq (List.mem_map_of_mem ha)
    rw [shown, shown, hdividers]
  | loopback =>
    rw [shown, shown, Loopback.shown, Loopback.shown, h.get_eq (by decide), h.get_eq (by decide)]

/-- No two settings share a bit. -/
theorem footprint_apart {setting other : Setting} (h : setting ≠ other) :
    ∀ bits ∈ setting.footprint, ∀ others ∈ other.footprint, bits.Apart others := by
  have hall : ∀ setting ∈ all, ∀ other ∈ all, setting ≠ other →
      ∀ bits ∈ setting.footprint, ∀ others ∈ other.footprint, bits.Apart others := by
    decide +kernel
  exact hall setting setting.mem_all other other.mem_all h

end Setting

end Transceiver
