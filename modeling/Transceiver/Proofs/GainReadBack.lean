import Mathlib.Algebra.Ring.Int.Defs
import Mathlib.Order.Bounds.Basic
import Transceiver.Proofs.PlainRegisters
import Transceiver.Proofs.Setters

/-!
# Gains read back

A dB stage has a few gains to offer, and between requests and the codes in its register there are
two maps that need not be inverse to each other. They agree on the gains that are offered. Every
request is programmed as the greatest offered gain that is not above it, every register byte decodes
to an offered gain, and an offered gain is programmed as itself, so to program what has been read is
to restore it.
-/

namespace Transceiver

open Procedure Register

namespace DbStage

/-! ## Offered gains -/

/-- The distance in dB between gains of a stage. -/
def step : DbStage → Int
  | .rxvga2 => rxvga2Step
  | .rxvga1 | .txvga1 | .txvga2 => 1

/-- A stage has a gain to offer. -/
def Offers (stage : DbStage) (gain : Int) : Prop :=
  stage.low ≤ gain ∧ gain ≤ stage.high ∧ stage.step ∣ gain

instance (stage : DbStage) (gain : Int) : Decidable (stage.Offers gain) :=
  inferInstanceAs (Decidable (_ ∧ _))

theorem effective_eq (stage : DbStage) (request : Int) :
    stage.effective request = stage.clamp request / stage.step * stage.step := by
  cases stage with
  | rxvga2 => rfl
  | rxvga1 | txvga1 | txvga2 => simp only [effective, step, Int.ediv_one, Int.mul_one]

theorem step_pos (stage : DbStage) : 0 < stage.step := by
  cases stage <;> decide

/-- The range of a stage starts and ends with gains that it offers. -/
theorem offers_ends (stage : DbStage) : stage.Offers stage.low ∧ stage.Offers stage.high := by
  cases stage <;> decide

theorem clamp_mono (stage : DbStage) {request other : Int} (h : request ≤ other) :
    stage.clamp request ≤ stage.clamp other := by
  unfold clamp
  omega

/-- Of two requests, the greater one does not get the lesser gain. -/
theorem effective_mono (stage : DbStage) {request other : Int} (h : request ≤ other) :
    stage.effective request ≤ stage.effective other := by
  rw [effective_eq, effective_eq]
  apply Int.mul_le_mul_of_nonneg_right _ stage.step_pos.le
  exact Int.ediv_le_ediv stage.step_pos (stage.clamp_mono h)

/-- An offered gain is programmed as itself. -/
theorem effective_of_offers {stage : DbStage} {gain : Int} (h : stage.Offers gain) :
    stage.effective gain = gain := by
  obtain ⟨hlow, hhigh, hstep⟩ := h
  rw [effective_eq, clamp_of_mem ⟨hlow, hhigh⟩, Int.ediv_mul_cancel hstep]

theorem offers_effective (stage : DbStage) (request : Int) :
    stage.Offers (stage.effective request) := by
  obtain ⟨hlow, hhigh⟩ := stage.clamp_mem request
  obtain ⟨hofferLow, hofferHigh⟩ := stage.offers_ends
  -- the ends are programmed as themselves, and all that is in between stays in between
  refine ⟨?_, ?_, ?_⟩
  · calc stage.low = stage.effective stage.low := (effective_of_offers hofferLow).symm
      _ ≤ stage.effective (stage.clamp request) := stage.effective_mono hlow
      _ = stage.effective request := stage.effective_clamp request
  · calc stage.effective request = stage.effective (stage.clamp request) :=
          (stage.effective_clamp request).symm
      _ ≤ stage.effective stage.high := stage.effective_mono hhigh
      _ = stage.high := effective_of_offers hofferHigh
  · rw [effective_eq]
    exact Int.dvd_mul_left _ _

/-- A request is programmed as the greatest offered gain not above it, or as the least of all if
there is none. -/
theorem isGreatest_effective (stage : DbStage) (request : Int) :
    IsGreatest {gain | stage.Offers gain ∧ gain ≤ max request stage.low}
      (stage.effective request) := by
  refine ⟨⟨stage.offers_effective request, ?_⟩, fun gain ⟨hoffer, hle⟩ => ?_⟩
  · have hclamp : stage.clamp request ≤ max request stage.low := Int.min_le_left _ _
    have hround : stage.effective request ≤ stage.clamp request := by
      rw [effective_eq]
      exact Int.ediv_mul_le _ stage.step_pos.ne'
    exact hround.trans hclamp
  · have hclamp : stage.clamp gain ≤ stage.clamp request := by
      have hrange := hoffer.1
      unfold clamp
      omega
    calc gain = stage.effective gain := (effective_of_offers hoffer).symm
      _ = stage.effective (stage.clamp gain) := (stage.effective_clamp gain).symm
      _ ≤ stage.effective (stage.clamp request) := stage.effective_mono hclamp
      _ = stage.effective request := stage.effective_clamp request

/-- Every register byte stands for an offered gain. -/
theorem offers_decode (stage : DbStage) (contents : Byte) :
    stage.Offers (stage.decode contents) := by
  revert contents
  cases stage <;> decide +kernel

/-! ## Codes -/

/-- A number as a code of some width, if it has one. -/
def code? (w : Nat) (n : Int) : Option (BitVec w) :=
  if 0 ≤ n ∧ n < 2 ^ w then some (BitVec.ofNat w n.toNat) else none

theorem code?_of_mem {w : Nat} {n : Int} (h : 0 ≤ n ∧ n < 2 ^ w) :
    code? w n = some (BitVec.ofNat w n.toNat) :=
  if_pos h

/-- The register contents for a gain. There are none if a number on the way is not an index of its
table or has no code in its field. -/
def encode? (stage : DbStage) (gain : Int) (old : Byte) : Option Byte :=
  match stage with
  | .rxvga1 => do
    let code ← if 0 ≤ gain then Rxvga1.codeOfDb[gain.toNat]? else none
    return Rx.vga1.set 0 (← code? 7 code)
  | .rxvga2 => return Rx.vga2.set 0 (← code? 5 (gain / rxvga2Step))
  | .txvga1 => code? 8 (gain + txvga1Offset)
  | .txvga2 => return Tx.vga2.set old (← code? 5 gain)

/-- The gain that register contents stand for, if the code is an index of its table. -/
def decode? (stage : DbStage) (contents : Byte) : Option Int :=
  match stage with
  | .rxvga1 =>
    Rxvga1.dbOfCode[min (Rx.vga1.get contents).toNat Rxvga1.maxCode]?.map fun db : Nat => (db : Int)
  | .rxvga2 | .txvga1 | .txvga2 => some (stage.decode contents)

/-- Nothing is out of range when a gain in range is encoded. -/
theorem encode?_of_mem {stage : DbStage} {gain : Int} (h : stage.low ≤ gain ∧ gain ≤ stage.high)
    (old : Byte) : stage.encode? gain old = some (stage.encode gain old) := by
  obtain ⟨hlow, hhigh⟩ := h
  cases stage with
  | rxvga1 =>
    -- the register is written whole, so the table can be checked with any contents before it
    have htable : ∀ db : Fin 31, encode? .rxvga1 (db.val : Int) old =
        some (encode .rxvga1 (db.val : Int) old) := by
      intro db
      show encode? .rxvga1 (db.val : Int) 0 = some (encode .rxvga1 (db.val : Int) 0)
      revert db
      decide +kernel
    obtain ⟨db, rfl⟩ : ∃ db : Nat, gain = db := ⟨gain.toNat, by simp only [low] at hlow; omega⟩
    exact htable ⟨db, by simp only [high] at hhigh; omega⟩
  | rxvga2 =>
    have hcode : 0 ≤ gain / rxvga2Step ∧ gain / rxvga2Step < 2 ^ 5 := by
      simp only [low, high, rxvga2Step] at hlow hhigh ⊢
      omega
    rw [encode?, code?_of_mem hcode]
    rfl
  | txvga1 =>
    have hcode : 0 ≤ gain + txvga1Offset ∧ gain + txvga1Offset < 2 ^ 8 := by
      simp only [low, high, txvga1Offset] at hlow hhigh ⊢
      omega
    rw [encode?, code?_of_mem hcode]
    rfl
  | txvga2 =>
    have hcode : 0 ≤ gain ∧ gain < 2 ^ 5 := by
      simp only [low, high] at hlow hhigh
      omega
    rw [encode?, code?_of_mem hcode]
    rfl

/-- Nothing is out of range when register contents are decoded, whatever they are. -/
theorem decode?_eq (stage : DbStage) (contents : Byte) :
    stage.decode? contents = some (stage.decode contents) := by
  cases stage with
  | rxvga1 =>
    have hindex : min (Rx.vga1.get contents).toNat Rxvga1.maxCode < Rxvga1.dbOfCode.length :=
      Nat.lt_of_le_of_lt (Nat.min_le_right _ _) (by decide +kernel)
    simp only [decode?, decode, List.getD_eq_getElem?_getD, List.getElem?_eq_getElem hindex,
      Option.map_some, Option.getD_some]
  | rxvga2 | txvga1 | txvga2 => rfl

/-- The bits that a stage's gain is stored in. -/
def bits : DbStage → Bits
  | .txvga2 => Tx.vga2.bits
  | .rxvga1 => .register rxvga1Gain
  | .rxvga2 => .register rxvga2Gain
  | .txvga1 => .register txvga1Gain

theorem agreeOutside_encode (stage : DbStage) (r : RegisterFile) (gain : Int) :
    r.AgreeOutside [stage.bits]
      (r.set stage.address (stage.encode gain (r.get stage.address))) := by
  cases stage with
  | txvga2 => exact RegisterFile.agreeOutside_set List.mem_cons_self r _
  | rxvga1 | rxvga2 | txvga1 =>
    refine RegisterFile.agreeOutside_of_get fun address hout => RegisterFile.get_set_of_ne _ ?_ _
    rintro rfl
    exact hout List.mem_cons_self

/-- The gain that a request gets has the code that the request has. -/
theorem encode_clamp_effective (stage : DbStage) (request : Int) (old : Byte) :
    stage.encode (stage.clamp (stage.effective request))
        (stage.encode (stage.clamp request) old) =
      stage.encode (stage.clamp request) old := by
  obtain ⟨hlow, hhigh, -⟩ := stage.offers_effective request
  rw [clamp_of_mem ⟨hlow, hhigh⟩]
  cases stage with
  | rxvga1 | txvga1 => rfl
  | rxvga2 =>
    -- the code is the quotient by the step, and that is what rounding keeps
    have hstep : rxvga2Step ≠ 0 := by decide
    simp only [encode, effective, Int.mul_ediv_cancel _ hstep]
  | txvga2 =>
    have hget := BitField.set_get_self Tx.vga2
      (Tx.vga2.set old (BitVec.ofNat 5 (clamp .txvga2 request).toNat))
    rw [BitField.get_set_self] at hget
    exact hget

end DbStage

/-! ## Runs -/

namespace Gain

open Chip

variable {c : Chip}

theorem memory_stage (stage : DbStage) : Site.at stage.address = .memory := by
  cases stage <;> rfl

/-- Storing a gain changes one register, and that is all. -/
theorem run_store (stage : DbStage) (hc : c.Serves stage.address) (gain : Int) :
    let o := (store stage gain).run transport c
    o.result = .ok () ∧
      o.state = c.store stage.address (stage.encode gain (c.registers.get stage.address)) := by
  cases stage with
  | rxvga1 | rxvga2 | txvga1 =>
    rw [store, run_writeByte_plain hc rfl]
    exact ⟨rfl, rfl⟩
  | txvga2 =>
    rw [store, run_modify_plain hc rfl]
    exact ⟨rfl, rfl⟩

/-- Every request gets its gain, and the register of the stage is all that is changed. -/
theorem run_set (stage : DbStage) (hc : c.Serves stage.address) (request : Int) :
    let o := (set (.db stage request)).run transport c
    o.result = .ok (.db stage (stage.effective request)) ∧
      o.state = c.store stage.address
        (stage.encode (stage.clamp request) (c.registers.get stage.address)) := by
  intro o
  obtain ⟨hresult, hstate⟩ := run_store stage hc (stage.clamp request)
  have hnote : ((noteClamped stage (stage.clamp request) request).run transport c).result = .ok () ∧
      ((noteClamped stage (stage.clamp request) request).run transport c).state = c := by
    unfold noteClamped
    split <;> exact ⟨rfl, rfl⟩
  have hset : ((setDb stage request).run transport c).result = .ok (stage.effective request) ∧
      ((setDb stage request).run transport c).state = c.store stage.address
        (stage.encode (stage.clamp request) (c.registers.get stage.address)) := by
    rw [setDb, run_bind_of_ok _ _ hnote.1, hnote.2, run_bind_of_ok _ _ hresult]
    exact ⟨rfl, hstate⟩
  show ((Gain.db stage <$> setDb stage request).run transport c).result = _ ∧
    ((Gain.db stage <$> setDb stage request).run transport c).state = _
  rw [run_map, hset.1]
  exact ⟨rfl, hset.2⟩

/-- The gain that is read is the one that the register stands for, and nothing is changed. -/
theorem run_read (stage : DbStage) (hc : c.Serves stage.address) :
    let o := (read (.db stage)).run transport c
    o.result = .ok (.db stage (stage.decode (c.registers.get stage.address))) ∧ o.state = c := by
  show ((Gain.db stage <$> stage.decode <$> readByte stage.address).run transport c).result = _ ∧
    ((Gain.db stage <$> stage.decode <$> readByte stage.address).run transport c).state = _
  rw [run_map, run_map, run_readByte_plain hc (memory_stage stage)]
  exact ⟨rfl, rfl⟩

/-- On a chip, a request to a stage is programmed as a gain and nothing else comes of it. -/
structure Programs (stage : DbStage) (c : Chip) (request gain : Int) : Prop where
  /-- The gain is the request brought into range and rounded down to the steps of the stage. -/
  rounded : gain = min (max request stage.low) stage.high / stage.step * stage.step
  /-- No offered gain is nearer to the request from below. -/
  greatest : IsGreatest {offered | stage.Offers offered ∧ offered ≤ max request stage.low} gain
  returned : ((set (.db stage request)).run transport c).result = .ok (.db stage gain)
  /-- The code is found without an index or a number out of range. -/
  encoded : stage.encode? (stage.clamp request) (c.registers.get stage.address) =
    some (((set (.db stage request)).run transport c).state.registers.get stage.address)
  /-- Only bits of the stage are changed, and only in registers. -/
  confined :
    let c' := ((set (.db stage request)).run transport c).state
    c' = { c with registers := c'.registers } ∧
      c.registers.AgreeOutside [stage.bits] c'.registers
  /-- The gain is what is read afterwards. -/
  shown :
    let c' := ((set (.db stage request)).run transport c).state
    ((read (.db stage)).run transport c').result = .ok (.db stage gain) ∧
      ((read (.db stage)).run transport c').state = c'
  /-- To request the gain itself afterwards changes nothing. -/
  repeated :
    let c' := ((set (.db stage request)).run transport c).state
    ((set (.db stage gain)).run transport c').result = .ok (.db stage gain) ∧
      ((set (.db stage gain)).run transport c').state = c'

/-- On a chip, what is read of a stage is a gain, which can be put back as it is. -/
structure Restores (stage : DbStage) (c : Chip) (gain : Int) : Prop where
  /-- The gain is found without an index out of range. -/
  decoded : stage.decode? (c.registers.get stage.address) = some gain
  offered : stage.Offers gain
  saved : ((read (.db stage)).run transport c).result = .ok (.db stage gain) ∧
    ((read (.db stage)).run transport c).state = c
  restored : ((set (.db stage gain)).run transport c).result = .ok (.db stage gain)
  /-- The gain is what is read afterwards, too. -/
  shown : ((read (.db stage)).run transport
    ((set (.db stage gain)).run transport c).state).result = .ok (.db stage gain)

theorem programs (stage : DbStage) (hc : c.Serves stage.address) (request : Int) :
    Programs stage c request (stage.effective request) := by
  obtain ⟨hresult, hstate⟩ := run_set stage hc request
  have hc' : ((set (.db stage request)).run transport c).state.Serves stage.address := by
    rw [hstate]
    exact hc.store _ _
  have hcontents : ((set (.db stage request)).run transport c).state.registers.get stage.address =
      stage.encode (stage.clamp request) (c.registers.get stage.address) := by
    rw [hstate, Chip.store, RegisterFile.get_set_self]
  refine {
    rounded := stage.effective_eq request
    greatest := stage.isGreatest_effective request
    returned := hresult
    encoded := ?_
    confined := ?_
    shown := ?_
    repeated := ?_ }
  · rw [hcontents, DbStage.encode?_of_mem (stage.clamp_mem request)]
  · rw [hstate]
    exact ⟨rfl, stage.agreeOutside_encode c.registers _⟩
  · obtain ⟨hread, hkept⟩ := run_read stage hc'
    rw [hcontents, DbStage.decode_encode_clamp] at hread
    exact ⟨hread, hkept⟩
  · obtain ⟨hagain, hkept⟩ := run_set stage hc' (stage.effective request)
    rw [DbStage.effective_of_offers (stage.offers_effective request)] at hagain
    refine ⟨hagain, hkept.trans ?_⟩
    -- the second code is the first one, so the register is written as it is
    rw [hcontents, stage.encode_clamp_effective, hstate, store_store]

theorem restores (stage : DbStage) (hc : c.Serves stage.address) :
    Restores stage c (stage.decode (c.registers.get stage.address)) := by
  have hoffer := stage.offers_decode (c.registers.get stage.address)
  -- what has been read is offered, so it is programmed as itself
  have hprograms := programs stage hc (stage.decode (c.registers.get stage.address))
  rw [DbStage.effective_of_offers hoffer] at hprograms
  exact {
    decoded := stage.decode?_eq _
    offered := hoffer
    saved := run_read stage hc
    restored := hprograms.returned
    shown := hprograms.shown.1 }

/-- Programming a stage and reading it agree, for every request and for every register byte that
there may be before. -/
theorem programming_agrees_with_reading (stage : DbStage) (c : Chip)
    (hc : c.Serves stage.address) :
    (∀ request : Int, Programs stage c request (stage.effective request)) ∧
      (∀ request other : Int, request ≤ other →
        stage.effective request ≤ stage.effective other) ∧
      ∃ gain, Restores stage c gain :=
  ⟨fun request => programs stage hc request, fun _ _ h => stage.effective_mono h,
    _, restores stage hc⟩

/-- At power on no access is refused. RXVGA2 has a gain for 17 dB there, 15 dB, and its register
holds the gain 0 dB. -/
theorem programming_agrees_with_reading_initial :
    initial.Serves (DbStage.address .rxvga2) ∧
      Programs .rxvga2 initial 17 15 ∧ ∃ gain, Restores .rxvga2 initial gain := by
  have hc : initial.Serves (DbStage.address .rxvga2) := ⟨nofun, nofun⟩
  obtain ⟨hprograms, -, hrestores⟩ := programming_agrees_with_reading .rxvga2 initial hc
  exact ⟨hc, hprograms 17, hrestores⟩

end Gain

end Transceiver
