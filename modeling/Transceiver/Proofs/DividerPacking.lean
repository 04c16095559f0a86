import Mathlib.Logic.Equiv.Defs
import Transceiver.Proofs.FilterSwitching
import Transceiver.Proofs.FrequencyReading
import Transceiver.Proofs.ModulatorBracket

/-!
# Dividers and register bytes

The dividers of a half have 9 and 23 bits, and the four registers that hold them have as many
together. No bit is left over and none is used twice, so dividers and register bytes are the same
thing in two forms (`PackedDividers.packing`). The packing is followed here down to the shifts,
masks and cuts that it is made of, and up to the registers. A half shows the settings that it is
programmed with from the moment on that the last of them is written, whatever becomes of the rest,
and programming it with the dividers that it holds leaves their registers alone.
-/

namespace Transceiver

open Procedure Register Chip

/-! ## Fields in bytes -/

namespace BitField

variable {w : Nat}

/-- The ones of a field's width, made of a power of two that may be one bit too wide for a byte. -/
def ones (w : Nat) : Byte :=
  ((1#16 <<< w) - 1).setWidth 8

/-- The value of a field as a byte: shifted to the bottom, and the rest masked off. -/
def getByte (f : BitField w) (b : Byte) : Byte :=
  (b >>> f.offset) &&& ones w

/-- A register byte with the field set to the lowest bits of another byte. -/
def setByte (f : BitField w) (b bits : Byte) : Byte :=
  (b &&& ~~~(ones w <<< f.offset)) ||| ((bits &&& ones w) <<< f.offset)

/-- The ones of a field are its mask, although a field of eight bits needs a power of two beyond the
byte. -/
theorem ones_eq (f : BitField w) : ones w = f.mask := by
  have hall : ∀ w ≤ 8, ones w = (BitVec.allOnes w).setWidth 8 := by decide
  have hfits := f.fits
  exact hall w (by omega)

/-- Masking and shifting sets the field, and takes no notice of the bits beyond it. -/
theorem setByte_eq (f : BitField w) (b bits : Byte) :
    f.setByte b bits = f.set b (bits.setWidth w) := by
  have hcut : bits &&& f.mask = (bits.setWidth w).setWidth 8 := by
    apply BitVec.eq_of_getLsbD_eq
    intro i hi
    simp only [mask, BitVec.getLsbD_and, BitVec.getLsbD_setWidth, BitVec.getLsbD_allOnes, hi,
      decide_true, Bool.true_and, Bool.and_comm]
  rw [setByte, f.ones_eq, hcut, set]

/-- A value taken out as a byte loses nothing in any word. -/
theorem setWidth_getByte (f : BitField w) (b : Byte) (v : Nat) :
    (f.getByte b).setWidth v = (f.get b).setWidth v := by
  have hfits := f.fits
  apply BitVec.eq_of_getLsbD_eq
  intro i hi
  simp only [getByte, f.ones_eq, mask, getLsbD_get, BitVec.getLsbD_and, BitVec.getLsbD_ushiftRight,
    BitVec.getLsbD_setWidth, BitVec.getLsbD_allOnes]
  by_cases hw : i < w
  · simp [hw, show i < 8 by omega]
  · simp [hw]

end BitField

/-- Cutting a word that has been shifted down keeps some of its digits. -/
theorem setWidth_ushiftRight {w v : Nat} (word : BitVec w) (k : Nat) :
    (word >>> k).setWidth v = BitVec.ofNat v (word.toNat / 2 ^ k) := by
  apply BitVec.eq_of_toNat_eq
  rw [BitVec.toNat_setWidth, BitVec.toNat_ushiftRight, Nat.shiftRight_eq_div_pow,
    BitVec.toNat_ofNat]

/-! ## Packing -/

namespace PackedDividers

variable (h : Half)

/-- The registers for dividers that are words. They are put into bytes by shifting and cutting, and
the bytes into fields by masking. -/
def packInWords (nint : BitVec 16) (nfrac : BitVec 32) : PackedDividers where
  nintHigh := (Pll.nintHigh h).setByte 0 ((nint >>> 1).setWidth 8)
  shared := (Pll.nfracHigh h).setByte ((Pll.nintLow h).setByte 0 ((nint &&& 1).setWidth 8))
    ((nfrac >>> 16).setWidth 8)
  nfracMid := (Pll.nfracMid h).setByte 0 ((nfrac >>> 8).setWidth 8)
  nfracLow := (Pll.nfracLow h).setByte 0 (nfrac.setWidth 8)

/-- The whole divider in a word, put together from bytes. -/
def nintInWords (p : PackedDividers) : BitVec 16 :=
  ((Pll.nintHigh h).getByte p.nintHigh).setWidth 16 <<< 1 |||
    ((Pll.nintLow h).getByte p.shared).setWidth 16

/-- The fractional divider in a word, put together from bytes. -/
def nfracInWords (p : PackedDividers) : BitVec 32 :=
  ((Pll.nfracHigh h).getByte p.shared).setWidth 32 <<< 16 |||
    ((Pll.nfracMid h).getByte p.nfracMid).setWidth 32 <<< 8 |||
      ((Pll.nfracLow h).getByte p.nfracLow).setWidth 32

/-- Also dividers that are too wide are packed alike, and lose the same bits. -/
theorem packInWords_eq (nint : BitVec 16) (nfrac : BitVec 32) :
    packInWords h nint nfrac = pack h nint.toNat nfrac.toNat := by
  have hlow : ((nint &&& 1).setWidth 8).setWidth 1 = BitVec.ofNat 1 nint.toNat := by
    apply BitVec.eq_of_toNat_eq
    simp
  have hhigh : ((nfrac >>> 16).setWidth 8).setWidth 7 = BitVec.ofNat 7 (nfrac.toNat / 0x10000) := by
    rw [BitVec.setWidth_setWidth_of_le _ (by decide), setWidth_ushiftRight]
    rfl
  simp only [packInWords, pack, BitField.setByte_eq, hlow, hhigh]
  simp only [setWidth_ushiftRight, BitVec.setWidth_eq, BitVec.ofNat_toNat]
  rfl

/-- Dividers that fit their fields fit their words. -/
theorem pack_eq_packInWords {nint nfrac : Nat} (hnint : nint < 2 ^ 9) (hnfrac : nfrac < 2 ^ 23) :
    pack h nint nfrac = packInWords h (BitVec.ofNat 16 nint) (BitVec.ofNat 32 nfrac) := by
  have hwhole : (BitVec.ofNat 16 nint).toNat = nint := by
    rw [BitVec.toNat_ofNat]
    omega
  have hfraction : (BitVec.ofNat 32 nfrac).toNat = nfrac := by
    rw [BitVec.toNat_ofNat]
    omega
  rw [packInWords_eq, hwhole, hfraction]

/-- The whole divider is unpacked in 16 bits without an overflow. -/
theorem toNat_nintInWords (p : PackedDividers) : (nintInWords h p).toNat = p.nint h := by
  rw [nintInWords, BitField.setWidth_getByte, BitField.setWidth_getByte, Synthesizer.toNat_nint,
    nint]

/-- The fractional divider is unpacked in 32 bits without an overflow. -/
theorem toNat_nfracInWords (p : PackedDividers) : (nfracInWords h p).toNat = p.nfrac h := by
  rw [nfracInWords, BitField.setWidth_getByte, BitField.setWidth_getByte,
    BitField.setWidth_getByte, Synthesizer.toNat_nfrac, nfrac]

/-- A whole divider of 9 bits and a fractional divider of 23 bits are four bytes. -/
def packing : Fin (2 ^ 9) × Fin (2 ^ 23) ≃ PackedDividers where
  toFun v := pack h v.1 v.2
  invFun p := (⟨p.nint h, p.nint_lt h⟩, ⟨p.nfrac h, p.nfrac_lt h⟩)
  left_inv v := Prod.ext (Fin.ext (nint_pack h v.1.isLt v.2)) (Fin.ext (nfrac_pack h v.1 v.2.isLt))
  right_inv p := pack_unpack h p

end PackedDividers

/-! ## Contents that all writes agree on -/

/-- If whatever is written to a register has some property, the register has it once it has been
written, and throughout if it had it at the start. -/
theorem RegisterFile.holds_after {address : Address} {events : List Event} {holds : Byte → Prop}
    {r : RegisterFile} (hwrites : ∀ value, .write address value true ∈ events → holds value)
    (h : Written address events ∨ holds (r.get address)) :
    holds ((r.after events).get address) := by
  rcases h with hwritten | hheld
  · obtain ⟨value, hmem, hvalue⟩ := get_after_of_written hwritten r
    exact hvalue ▸ hwrites value hmem
  · rcases get_after_cases events r address with hkept | ⟨value, hmem, hvalue⟩
    · exact hkept ▸ hheld
    · exact hvalue ▸ hwrites value hmem

namespace Synthesizer

open PackedDividers

/-! ## The registers with the settings -/

/-- The share of the settings of a half that one register holds. -/
inductive Share where
  | freqSel
  | nintHigh
  | shared
  | nfracMid
  | nfracLow
deriving DecidableEq

namespace Share

/-- The register of a share. -/
def address (h : Half) : Share → Address
  | .freqSel => (Pll.freqSel h).address
  | .nintHigh => (Pll.nintHigh h).address
  | .shared => (Pll.nfracHigh h).address
  | .nfracMid => (Pll.nfracMid h).address
  | .nfracLow => (Pll.nfracLow h).address

/-- A byte holds the share of packed dividers and a band code. The band code leaves the output
buffer open. -/
def HeldBy (h : Half) (packed : PackedDividers) (code : BitVec 6) : Share → Byte → Prop
  | .freqSel, value => (Pll.freqSel h).get value = code
  | .nintHigh, value => value = packed.nintHigh
  | .shared, value => value = packed.shared
  | .nfracMid, value => value = packed.nfracMid
  | .nfracLow, value => value = packed.nfracLow

/-- The shares are in five different registers. -/
theorem address_inj (h : Half) {share other : Share} (heq : share.address h = other.address h) :
    share = other := by
  revert heq
  cases h <;> cases share <;> cases other <;> decide

/-- Only one byte holds a share of the dividers. -/
theorem HeldBy.unique {h : Half} {packed : PackedDividers} {code : BitVec 6} {share : Share}
    {value other : Byte} (hheld : share.HeldBy h packed code value)
    (hother : share.HeldBy h packed code other) (hne : share ≠ .freqSel) : value = other := by
  cases share with
  | freqSel => exact absurd rfl hne
  | nintHigh | shared | nfracMid | nfracLow => exact Eq.trans hheld (Eq.symm hother)

theorem address_mem (h : Half) (share : Share) : share.address h ∈ settingsRegisters h := by
  cases h <;> cases share <;> decide

end Share

variable {h : Half} {hz : Nat} {packed : PackedDividers} {code : BitVec 6} {r : RegisterFile}

/-- The registers of a half hold packed dividers. -/
theorem packedOf_eq_iff (code : BitVec 6) : packedOf h r = packed ↔
    ∀ share : Share, share ≠ .freqSel → share.HeldBy h packed code (r.get (share.address h)) := by
  constructor
  · rintro rfl share hne
    cases share with
    | freqSel => exact absurd rfl hne
    | nintHigh | shared | nfracMid | nfracLow => rfl
  · intro hheld
    have hnintHigh : r.get (Pll.nintHigh h).address = _ := hheld .nintHigh (by decide)
    have hshared : r.get (Pll.nfracHigh h).address = _ := hheld .shared (by decide)
    have hnfracMid : r.get (Pll.nfracMid h).address = _ := hheld .nfracMid (by decide)
    have hnfracLow : r.get (Pll.nfracLow h).address = _ := hheld .nfracLow (by decide)
    rw [packedOf, hnintHigh, hshared, hnfracMid, hnfracLow]

/-! ## What programming writes -/

/-- What is written to a register with settings is its share of them. -/
def Settles (h : Half) (packed : PackedDividers) (code : BitVec 6) (address : Address)
    (value : Byte) : Prop :=
  ∀ share : Share, share.address h = address → share.HeldBy h packed code value

/-- A byte with its share may be written to the register of the share. -/
theorem Share.HeldBy.settles {share : Share} {value : Byte}
    (hheld : share.HeldBy h packed code value) :
    Settles h packed code (share.address h) value := by
  intro other heq
  obtain rfl := Share.address_inj h heq
  exact hheld

/-- The band code is written, alone or with the output buffer. -/
theorem writesOnly_writeBand (h : Half) (hz : Nat) (packed : PackedDividers) (code : BitVec 6) :
    (writeBand h hz code).WritesOnly (Settles h packed code) := by
  have hdisjoint : (Pll.freqSel h).Disjoint (Pll.selOut h) := by cases h <;> decide
  have hwrite (value : Byte) (hcode : (Pll.freqSel h).get value = code) :
      (writeByte (Pll.freqSel h).address value).WritesOnly (Settles h packed code) := by
    have hheld : Share.freqSel.HeldBy h packed code value := hcode
    exact (writesOnly_writeByte _ _).2 hheld.settles
  have hengaged : Loopback.isEngaged.Careful (Settles h packed code) fun _ => False :=
    Loopback.careful_isEngaged
  simp only [writeBand, writesOnly_bind, writesOnly_readByte, hengaged.writesOnly, true_and]
  intro old _ engaged _
  split
  · exact hwrite _ (BitField.get_set_self _ _ _)
  · exact hwrite _ (by rw [BitField.get_set_of_disjoint hdisjoint, BitField.get_set_self])

/-- Writing dividers writes their shares and nothing else. -/
theorem writesOnly_writeDividers (h : Half) (nint nfrac : Nat) (code : BitVec 6) :
    (writeDividers h nint nfrac).WritesOnly fun address value => ∃ share : Share,
      share ≠ .freqSel ∧ share.address h = address ∧
        share.HeldBy h (pack h nint nfrac) code value := by
  simp only [writeDividers, writesOnly_bind, writesOnly_writeByte]
  refine ⟨⟨.nintHigh, ?_, rfl, rfl⟩, fun _ _ => ⟨⟨.shared, ?_, rfl, rfl⟩,
    fun _ _ => ⟨⟨.nfracMid, ?_, rfl, rfl⟩, fun _ _ => ⟨.nfracLow, ?_, rfl, rfl⟩⟩⟩⟩
  all_goals decide

/-- Programming writes nothing to the registers with settings but their shares of them. -/
theorem writesOnly_program (h : Half) (hz : Nat) (d : Divider) :
    (program h hz d).WritesOnly (Settles h (pack h d.nint d.nfrac) d.freqSel) := by
  have hlock : (do setCurrents h; tune h).WritesOnly
      (Settles h (pack h d.nint d.nfrac) d.freqSel) :=
    (writesOnly_lockSteps h).mono fun address value hspares share heq =>
      absurd (heq ▸ share.address_mem h) hspares
  have hdividers : (writeDividers h d.nint d.nfrac).WritesOnly
      (Settles h (pack h d.nint d.nfrac) d.freqSel) := by
    refine (writesOnly_writeDividers h d.nint d.nfrac d.freqSel).mono ?_
    rintro _ value ⟨share, -, rfl, hheld⟩
    exact hheld.settles
  rw [program, writesOnly_bind]
  refine ⟨writesOnly_writeBand h hz _ d.freqSel, fun _ _ => ?_⟩
  rw [writesOnly_bind]
  exact ⟨hdividers, fun _ _ => hlock⟩

/-! ## The order of the writes -/

/-- The lowest byte of the fraction is written after all other shares of the settings. -/
def LowestLast (h : Half) (past : List Event) (e : Event) : Prop :=
  ∀ value, e = .write (Share.nfracLow.address h) value true →
    ∀ share : Share, share ≠ .nfracLow → Written (share.address h) past

/-- Some shares of the settings have been written, unless a refusal has put an end to it. -/
def Progress {α : Type} (h : Half) (done : List Share) (result : Except Fault α)
    (past : List Event) : Prop :=
  match result with
  | .ok _ => ∀ share ∈ done, Written (share.address h) past
  | .error _ => ∃ e ∈ past, e.isRefused

section Order

variable {past : List Event}

theorem refused_append {e : Event} (hrefused : e.isRefused) : ∃ x ∈ past ++ [e], x.isRefused :=
  ⟨e, List.mem_append_right _ (List.mem_singleton_self e), hrefused⟩

/-- Writing a share adds it to those that have been written, or is refused. The last share has to
find all others written. -/
theorem ensures_writeShare {done : List Share} (share : Share) (value : Byte)
    (hdone : ∀ other ∈ done, Written (other.address h) past)
    (hlast : share = .nfracLow → ∀ other, other ≠ .nfracLow → other ∈ done) :
    (writeByte (share.address h) value).Ensures (LowestLast h) (Progress h (share :: done))
      past := by
  apply ensures_writeByte
  · intro accepted v heq other hne
    obtain ⟨haddress, -⟩ := Event.write.inj heq
    exact hdone other (hlast (Share.address_inj h haddress) other hne)
  · exact refused_append rfl
  · intro other hmem
    rcases List.mem_cons.1 hmem with rfl | hmem
    · exact ⟨value, List.mem_append_right _ (List.mem_singleton_self _)⟩
    · obtain ⟨old, hold⟩ := hdone other hmem
      exact ⟨old, List.mem_append_left _ hold⟩

theorem ensures_isEngaged :
    Loopback.isEngaged.Ensures (LowestLast h) (Progress h []) past := by
  have hcurrent : Loopback.current.Ensures (LowestLast h) (Progress h []) past := by
    apply ensures_readByte_bind (fun _ => nofun) (refused_append rfl)
    intro control
    apply ensures_readByte_bind (fun _ => nofun) (refused_append rfl)
    intro source
    exact nofun
  exact hcurrent.bind (fun _ _ _ => nofun) fun _ _ hrefusal => hrefusal

/-- The band code is written first. -/
theorem ensures_writeBand (hz : Nat) (code : BitVec 6) :
    (writeBand h hz code).Ensures (LowestLast h) (Progress h [.freqSel]) past := by
  apply ensures_readByte_bind (fun _ => nofun) (refused_append rfl)
  intro old
  refine ensures_isEngaged.bind (fun engaged past' _ => ?_) fun _ _ hrefusal => hrefusal
  split <;> exact ensures_writeShare .freqSel _ nofun nofun

/-- The dividers are written after it, the lowest byte of the fraction last. -/
theorem ensures_writeDividers (nint nfrac : Nat)
    (hband : ∀ share ∈ [Share.freqSel], Written (share.address h) past) :
    (writeDividers h nint nfrac).Ensures (LowestLast h)
      (Progress h [.nfracLow, .nfracMid, .shared, .nintHigh, .freqSel]) past := by
  refine (ensures_writeShare .nintHigh _ hband nofun).bind (fun _ _ hdone => ?_)
    fun _ _ hrefusal => hrefusal
  refine (ensures_writeShare .shared _ hdone nofun).bind (fun _ _ hdone => ?_)
    fun _ _ hrefusal => hrefusal
  refine (ensures_writeShare .nfracMid _ hdone nofun).bind (fun _ _ hdone => ?_)
    fun _ _ hrefusal => hrefusal
  refine ensures_writeShare .nfracLow _ hdone fun _ other hne => ?_
  cases other with
  | nfracLow => exact absurd rfl hne
  | freqSel | nintHigh | shared | nfracMid => simp

/-- Programming gets as far as the last share of the settings, unless an access is refused. -/
theorem ensures_program (h : Half) (hz : Nat) (d : Divider) :
    (program h hz d).Ensures (LowestLast h) (fun _ past' =>
      Written (Share.nfracLow.address h) past' ∨ ∃ e ∈ past', e.isRefused) [] := by
  have hlock : (do setCurrents h; tune h).Emits fun e => ∀ address value accepted,
      e = Event.write address value accepted → SparesSettings h address value :=
    (writesOnly_lockSteps h).emits
  refine (ensures_writeBand hz d.freqSel).bind (fun _ past hband => ?_)
    fun _ _ hrefusal => .inr hrefusal
  refine (ensures_writeDividers d.nint d.nfrac hband).bind (fun _ past' hdone => ?_)
    fun _ _ hrefusal => .inr hrefusal
  -- what comes after the settings writes none of their registers
  refine (hlock.ensures fun past e hspares value heq =>
    absurd (Share.address_mem h .nfracLow) (hspares _ _ _ heq)).mono fun _ _ hgoesOn => ?_
  obtain ⟨new, rfl, -⟩ := hgoesOn
  obtain ⟨value, hmem⟩ := hdone .nfracLow (by simp)
  exact .inl ⟨value, List.mem_append_left _ hmem⟩

end Order

/-! ## The settings on the way -/

section Moments

variable {d : Divider} {refused : Nat → Bool} {s : Nat × Chip} {pre rest : List Event}
  (hevents : ((program h hz d).run (bus refused) s).events = pre ++ rest)

include hevents

/-- What has been written to a register with settings is its share of them. -/
theorem heldBy_of_written (share : Share) {value : Byte}
    (hmem : .write (share.address h) value true ∈ pre) :
    share.HeldBy h (pack h d.nint d.nfrac) d.freqSel value := by
  have hwrite : .write (share.address h) value true ∈
      ((program h hz d).run (bus refused) s).events :=
    hevents ▸ List.mem_append_left rest hmem
  exact (writesOnly_program h hz d).of_mem _ _ hwrite share rfl

/-- Once the lowest byte of the fraction is written, all shares of the settings are. -/
theorem written_of_lowest (hlowest : Written (Share.nfracLow.address h) pre) (share : Share) :
    Written (share.address h) pre := by
  by_cases hne : share = .nfracLow
  · exact hne ▸ hlowest
  · obtain ⟨value, hmem⟩ := hlowest
    obtain ⟨before, after, rfl⟩ := List.append_of_mem hmem
    rw [List.append_assoc, List.cons_append] at hevents
    have hordered := ((ensures_program h hz d).run (bus refused) s).2 before _ _ hevents
    obtain ⟨old, hold⟩ := hordered value rfl share hne
    exact ⟨old, List.mem_append_left _ hold⟩

/-- From then on the half holds the settings. -/
theorem settled_after (hlowest : Written (Share.nfracLow.address h) pre) :
    packedOf h (s.2.registers.after pre) = pack h d.nint d.nfrac ∧
      (s.2.registers.after pre).field (Pll.freqSel h) = d.freqSel := by
  have hheld (share : Share) : share.HeldBy h (pack h d.nint d.nfrac) d.freqSel
      ((s.2.registers.after pre).get (share.address h)) :=
    RegisterFile.holds_after (fun _ hmem => heldBy_of_written hevents share hmem)
      (.inl (written_of_lowest hevents hlowest share))
  exact ⟨(packedOf_eq_iff d.freqSel).2 fun share _ => hheld share, hheld .freqSel⟩

/-- Dividers that the half holds already stay as they are. -/
theorem packedOf_after (hpacked : packedOf h s.2.registers = pack h d.nint d.nfrac) :
    packedOf h (s.2.registers.after pre) = packedOf h s.2.registers := by
  have hheld := (packedOf_eq_iff d.freqSel).1 hpacked
  rw [hpacked]
  exact (packedOf_eq_iff d.freqSel).2 fun share hne =>
    RegisterFile.holds_after (fun _ hmem => heldBy_of_written hevents share hmem)
      (.inr (hheld share hne))

end Moments

/-! ## There and back -/

/-- Registers hold some dividers, packed by shifts, masks and cuts, and show what they are to
show. -/
structure Holds (h : Half) (d shown : Divider) (c : Chip) : Prop where
  bytes : packedOf h c.registers =
    packInWords h (BitVec.ofNat 16 d.nint) (BitVec.ofNat 32 d.nfrac)
  shown : c.shows (dividers h) = .ok shown

/-- Registers in which all shares are settled hold the dividers and show them. -/
theorem holds_of_settled {c : Chip} {d : Divider} (hnint : d.nint < 2 ^ 9)
    (hnfrac : d.nfrac < 2 ^ 23) {x : Nat} (hx : vcoDivider d.freqSel = .ok x)
    (hsettled : packedOf h c.registers = pack h d.nint d.nfrac ∧
      c.registers.field (Pll.freqSel h) = d.freqSel) :
    Holds h d { x, nint := d.nint, nfrac := d.nfrac, freqSel := d.freqSel, reference := 38400000 }
      c := by
  obtain ⟨hpacked, hcode⟩ := hsettled
  constructor
  · rw [hpacked, pack_eq_packInWords h hnint hnfrac]
  · have hfield : (Pll.freqSel h).get (c.registers.get (Pll.freqSel h).address) = d.freqSel := hcode
    rw [shows_dividers, dividersOf, hpacked, hfield, decode, hx, nint_pack h hnint,
      nfrac_pack h _ hnfrac]
    rfl

/-- A half that is programmed with some settings holds them. -/
structure HoldsProgrammed (refused : Nat → Bool) (s : Nat × Chip) (h : Half) (hz : Nat)
    (d shown : Divider) : Prop where
  /-- At every moment after the last of the five writes, whatever is refused from then on. -/
  moments : ∀ pre rest, ((program h hz d).run (bus refused) s).events = pre ++ rest →
    Written (Pll.nfracLow h).address pre →
      Holds h d shown { s.2 with registers := s.2.registers.after pre }
  /-- In the end, if nothing is refused. The VCO need not lock. -/
  inTheEnd : (∀ e ∈ ((program h hz d).run (bus refused) s).events, e.isRefused = false) →
    Holds h d shown ((program h hz d).run (bus refused) s).state.2

/-- Programming settles all shares, and whatever it writes afterwards leaves them settled. -/
theorem holdsProgrammed (refused : Nat → Bool) (s : Nat × Chip) (h : Half) (hz : Nat)
    {d : Divider} (hnint : d.nint < 2 ^ 9) (hnfrac : d.nfrac < 2 ^ 23) {x : Nat}
    (hx : vcoDivider d.freqSel = .ok x) :
    HoldsProgrammed refused s h hz d
      { x, nint := d.nint, nfrac := d.nfrac, freqSel := d.freqSel, reference := 38400000 } := by
  constructor
  · intro pre rest hevents hlowest
    exact holds_of_settled hnint hnfrac hx (settled_after hevents hlowest)
  · intro haccepted
    have hlowest : Written (Share.nfracLow.address h)
        ((program h hz d).run (bus refused) s).events := by
      rcases ((ensures_program h hz d).run (bus refused) s).1 with hwritten | ⟨e, hmem, hrefusal⟩
      · exact hwritten
      · exact absurd hrefusal (by simp [haccepted e hmem])
    apply holds_of_settled hnint hnfrac hx
    rw [registers_run]
    exact settled_after (List.append_nil _).symm hlowest

/-- The dividers that four bytes of a half are unpacked to are written back. -/
structure WritesBack (h : Half) (c : Chip) (p : PackedDividers) : Prop where
  read : c.shows (readDividers h) = .ok p
  /-- If the band code has a meaning, the dividers are what the half shows. -/
  shown : ∀ d, c.shows (dividers h) = .ok d → d.nint = p.nint h ∧ d.nfrac = p.nfrac h
  /-- Written back to their registers they change no register, however much of it is refused. -/
  written : ∀ refused n,
    ((writeDividers h (p.nint h) (p.nfrac h)).run (bus refused) (n, c)).state.2.registers =
      c.registers
  /-- Programmed with any band code they leave the four bytes alone at every moment. -/
  programmed : ∀ refused n hz (d : Divider), d.nint = p.nint h → d.nfrac = p.nfrac h →
    ∀ pre rest, ((program h hz d).run (bus refused) (n, c)).events = pre ++ rest →
      packedOf h (c.registers.after pre) = p

/-- What the registers hold packs to the bytes that they hold, so that writing it back writes the
same bytes. -/
theorem writesBack (h : Half) (c : Chip) : WritesBack h c (packedOf h c.registers) := by
  have hunpacked := pack_unpack h (packedOf h c.registers)
  constructor
  · exact shows_of_wp ((wp_readDividers h _).2 rfl)
  · intro d hshown
    rw [shows_dividers, dividersOf, decode] at hshown
    cases hx : vcoDivider ((Pll.freqSel h).get (c.registers.get (Pll.freqSel h).address)) with
    | error fault =>
      rw [hx] at hshown
      cases hshown
    | ok x =>
      rw [hx] at hshown
      obtain rfl := Except.ok.inj hshown
      exact ⟨rfl, rfl⟩
  · intro refused n
    rw [registers_run]
    apply RegisterFile.ext_get
    intro address
    rcases RegisterFile.get_after_cases ((writeDividers h ((packedOf h c.registers).nint h)
      ((packedOf h c.registers).nfrac h)).run (bus refused) (n, c)).events c.registers address with
      hkept | ⟨value, hmem, hvalue⟩
    · exact hkept
    · obtain ⟨share, hne, rfl, hheld⟩ :=
        (writesOnly_writeDividers h _ _ 0).of_mem (bus refused) (n, c) hmem
      rw [hunpacked] at hheld
      rw [hvalue]
      exact hheld.unique ((packedOf_eq_iff 0).1 rfl share hne) hne
  · intro refused n hz d hnint hnfrac pre rest hevents
    apply packedOf_after (s := (n, c)) hevents
    rw [hnint, hnfrac, hunpacked]

/-- The packing of the dividers is a bijection between pairs of 9 and 23 bits and four bytes, and is
what shifts, masks and cuts of words make it. A half that is programmed with such a pair and a band
code that has a meaning holds and shows them as soon as the last of them is written, and in the end
if nothing is refused. Whatever the four bytes are, the dividers that are unpacked from them can be
written back, and leave them as they are. -/
theorem packing_lossless (h : Half) :
    (∀ v, packing h v = packInWords h (BitVec.ofNat 16 v.1) (BitVec.ofNat 32 v.2)) ∧
    (∀ p, ((packing h).symm p).1.val = (nintInWords h p).toNat ∧
      ((packing h).symm p).2.val = (nfracInWords h p).toNat) ∧
    (∀ (refused : Nat → Bool) (s : Nat × Chip) (hz : Nat) (d : Divider), d.nint < 2 ^ 9 →
      d.nfrac < 2 ^ 23 → 3 ≤ d.freqSel.toNat % 8 →
        ∃ x, vcoDivider d.freqSel = .ok x ∧ HoldsProgrammed refused s h hz d
          { x, nint := d.nint, nfrac := d.nfrac, freqSel := d.freqSel, reference := 38400000 }) ∧
    ∀ c : Chip, WritesBack h c (packedOf h c.registers) := by
  refine ⟨fun v => ?_, fun p => ?_, fun refused s hz d hnint hnfrac hcode => ?_, writesBack h⟩
  · exact pack_eq_packInWords h v.1.isLt v.2.isLt
  · rw [toNat_nintInWords, toNat_nfracInWords]
    exact ⟨rfl, rfl⟩
  · have hx : vcoDivider d.freqSel = .ok (2 ^ (d.freqSel.toNat % 8 - 3)) := by
      rw [vcoDivider_eq, if_pos hcode]
    exact ⟨_, hx, holdsProgrammed refused s h hz hnint hnfrac hx⟩

/-- The whole divider has its highest bit set, and the VCO does not lock. The half shows the same
where the access right after the five writes is refused. -/
theorem packing_lossless_unlocked :
    let d : Divider :=
      { x := 0, nint := 0x155, nfrac := 0x2aaaaa, freqSel := 0x23, reference := 0 }
    let shown : Divider := { d with x := 1, reference := 38400000 }
    let c : Chip := { Chip.initial with registers := RegisterFile.filled 0xff, window := none }
    let o := (program .rx 0 d).run (bus fun _ => false) (0, c)
    let cut := (program .rx 0 d).run (bus (· == 8)) (0, c)
    o.result = .error .unexpectedState ∧
      packedOf .rx o.state.2.registers = ⟨0xaa, 0xaa, 0xaa, 0xaa⟩ ∧
      o.state.2.shows (dividers .rx) = .ok shown ∧
      cut.result = .error .io ∧
      { c with registers := c.registers.after cut.events : Chip }.shows (dividers .rx) =
        .ok shown := by
  intro d shown c o cut
  have hratio : vcoDivider d.freqSel = .ok 1 := by decide
  have hprogrammed (refused : Nat → Bool) : HoldsProgrammed refused (0, c) .rx 0 d shown := by
    obtain ⟨x, hx, hholds⟩ := (packing_lossless .rx).2.2.1 refused (0, c) 0 d (by decide)
      (by decide) (by decide)
    obtain rfl := Except.ok.inj (hratio.symm.trans hx)
    exact hholds
  obtain ⟨hbytes, hshown⟩ := (hprogrammed fun _ => false).inTheEnd (by decide +kernel)
  have hwritten : Written (Pll.nfracLow .rx).address cut.events := ⟨0xaa, by decide +kernel⟩
  have hcut := (hprogrammed (· == 8)).moments cut.events [] (List.append_nil _).symm hwritten
  exact ⟨by decide +kernel, hbytes.trans (by decide), hshown, by decide +kernel, hcut.shown⟩

end Synthesizer

end Transceiver
