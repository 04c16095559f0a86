import Transceiver.Proofs.Programming

/-!
# Tuning inside a window

The trim codes at which a VCO locks form a window, and the comparators tell on which side of it a
code lies. The search for a code inside keeps to a span around the code that it probes: the span
halves with every step, and as long as it reaches into the window, so does the half that the search
goes on with. From a code inside, the two walks end at the two ends of the window, and the code that
is settled on lies halfway between them.
-/

namespace Transceiver.Synthesizer

open Procedure Register

/-! ## Windows -/

/-- A trim code is in the window. -/
def Inside (w : Byte × Byte) (code : Nat) : Prop :=
  w.1.toNat ≤ code ∧ code ≤ w.2.toNat

instance (w : Byte × Byte) (code : Nat) : Decidable (Inside w code) :=
  inferInstanceAs (Decidable (_ ∧ _))

/-- A VCO locks somewhere in the window: a code is in it that the search can get to. The search gets
to every code but the least. -/
def Locks (w : Byte × Byte) : Prop :=
  ∃ code, 1 ≤ code ∧ code ≤ lastCode ∧ Inside w code

/-- Where the tuning voltage lies at a trim code. -/
def voltageOf (w : Byte × Byte) (code : Nat) : TuningVoltage :=
  if code < w.1.toNat then .high else if w.2.toNat < code then .low else .normal

variable {w : Byte × Byte} {code : Nat}

theorem locks_iff : Locks w ↔ w.1.toNat ≤ w.2.toNat ∧ w.1.toNat ≤ 63 ∧ 1 ≤ w.2.toNat := by
  unfold Locks Inside lastCode
  constructor
  · rintro ⟨code, hpos, hlast, hfrom, hto⟩
    omega
  · rintro ⟨hle, hlast, hpos⟩
    exact ⟨max w.1.toNat 1, by omega, by omega, by omega, by omega⟩

theorem voltageOf_eq_high : voltageOf w code = .high ↔ code < w.1.toNat := by
  unfold voltageOf
  grind

theorem voltageOf_eq_low : voltageOf w code = .low ↔ w.1.toNat ≤ code ∧ w.2.toNat < code := by
  unfold voltageOf
  grind

theorem voltageOf_eq_normal : voltageOf w code = .normal ↔ Inside w code := by
  unfold voltageOf Inside
  grind

/-- The comparators show where the tuning voltage lies. -/
theorem ofCode_voltageAt (h : Half) (trim : BitVec 6) :
    TuningVoltage.ofCode ((Pll.vtune h).get (Chip.voltageAt w trim)).toNat =
      .ok (voltageOf w trim.toNat) := by
  unfold Chip.voltageAt voltageOf
  split
  · cases h <;> rfl
  · split <;> cases h <;> rfl

/-! ## Probing -/

/-- The registers with a trim code set in the capacitor byte `cap`. -/
def trimmed (h : Half) (cap : Byte) (code : Nat) (r : RegisterFile) : RegisterFile :=
  r.set (Pll.vcoCap h).address ((Pll.vcoCap h).set cap (BitVec.ofNat 6 code))

theorem field_trimmed (h : Half) (cap : Byte) (code : Nat) (r : RegisterFile) :
    (trimmed h cap code r).field (Pll.vcoCap h) = BitVec.ofNat 6 code := by
  rw [RegisterFile.field, trimmed, RegisterFile.get_set_self, BitField.get_set_self]

variable {h : Half} {cap : Byte} {r : RegisterFile}

/-- While the comparators follow a window, a read of them is settled by the trim code. -/
theorem wp_loadVoltage {post : Except Fault (BitVec 2) → RegisterFile → Prop} :
    (load (Pll.vtune h)).wp (some w) post r ↔
      post (.ok ((Pll.vtune h).get (Chip.voltageAt w (r.field (Pll.vcoCap h))))) r := by
  have hanswers (value : Byte) : Answers (some w) r (Pll.vtune h).address value ↔
      value = Chip.voltageAt w (r.field (Pll.vcoCap h)) := by
    simp [Answers, RegisterFile.field]
  show (∀ value, Answers (some w) r (Pll.vtune h).address value →
    post (.ok ((Pll.vtune h).get value)) r) ↔ _
  simp only [hanswers, forall_eq]

theorem wp_probe (hcode : code ≤ lastCode)
    {post : Except Fault TuningVoltage → RegisterFile → Prop} :
    (probe h cap code).wp (some w) post r ↔
      post (.ok (voltageOf w code)) (trimmed h cap code r) := by
  have htrim : (BitVec.ofNat 6 code).toNat = code := by
    unfold lastCode at hcode
    rw [BitVec.toNat_ofNat]
    omega
  rw [probe, wp_bind, wp_writeByte, between_ok, wp_bind, wp_loadVoltage, between_ok]
  rw [← trimmed, field_trimmed, ofCode_voltageAt, htrim]
  rfl

/-! ## Searching -/

/-- How far the codes are away that a search can still get to with some probes after the next. -/
def span : (probes : Nat) → Nat
  | 0 => 0
  | probes + 1 => 2 * span probes + 1

/-- A search whose span reaches into the window finds a code inside. -/
theorem wp_search {target : Nat} (htarget : Inside w target) (probes : Nat)
    (hlow : span probes < code) (hhigh : code + span probes ≤ lastCode)
    (hleft : code ≤ target + span probes) (hright : target ≤ code + span probes) :
    (search h cap (probes + 1) code ((span probes + 1) / 2)).wp (some w)
      (fun result _ => ∃ found, result = .ok (some found) ∧ found ≤ lastCode ∧ Inside w found)
      r := by
  have hcode : code ≤ lastCode := Nat.le_trans (Nat.le_add_right _ _) hhigh
  obtain ⟨hfrom, hto⟩ := htarget
  -- the induction is on the probes left; whichever way the search goes, the target stays in span
  induction probes generalizing code r with
  | zero =>
    obtain rfl : code = target := by
      simp only [span] at hleft hright
      omega
    have hnormal : voltageOf w code = .normal := voltageOf_eq_normal.2 ⟨hfrom, hto⟩
    rw [search, wp_bind, wp_probe hcode, hnormal]
    exact ⟨code, rfl, hcode, hfrom, hto⟩
  | succ probes ih =>
    simp only [span] at hlow hhigh hleft hright
    have hstep : (span (probes + 1) + 1) / 2 = span probes + 1 := by
      simp only [span]
      omega
    rw [search, wp_bind, wp_probe hcode, between_ok, hstep]
    cases hvoltage : voltageOf w code with
    | normal => exact ⟨code, rfl, hcode, voltageOf_eq_normal.1 hvoltage⟩
    | high =>
      have hbelow := voltageOf_eq_high.1 hvoltage
      exact ih (by omega) (by omega) (by omega) (by omega) (by omega)
    | low =>
      obtain ⟨-, habove⟩ := voltageOf_eq_low.1 hvoltage
      exact ih (by omega) (by omega) (by omega) (by omega) (by omega)

/-- Without a lock, the search finds nothing. -/
theorem wp_search_none (hw : ¬ Locks w) (probes : Nat) (hlow : span probes < code)
    (hhigh : code + span probes ≤ lastCode) :
    (search h cap (probes + 1) code ((span probes + 1) / 2)).wp (some w)
      (fun result _ => result = .ok none) r := by
  -- outside the window no code locks, so that the search runs out of probes
  have houtside {probed : Nat} (hpos : 1 ≤ probed) (hlast : probed ≤ lastCode) :
      voltageOf w probed ≠ .normal := fun hnormal =>
    hw ⟨probed, hpos, hlast, voltageOf_eq_normal.1 hnormal⟩
  have hcode : code ≤ lastCode := Nat.le_trans (Nat.le_add_right _ _) hhigh
  induction probes generalizing code r with
  | zero =>
    rw [search, wp_bind, wp_probe hcode, between_ok]
    cases hvoltage : voltageOf w code with
    | normal => exact absurd hvoltage (houtside hlow hcode)
    | high | low => rfl
  | succ probes ih =>
    simp only [span] at hlow hhigh
    have hstep : (span (probes + 1) + 1) / 2 = span probes + 1 := by
      simp only [span]
      omega
    rw [search, wp_bind, wp_probe hcode, between_ok, hstep]
    cases hvoltage : voltageOf w code with
    | normal => exact absurd hvoltage (houtside (by omega) hcode)
    | high | low => exact ih (by omega) (by omega) (by omega)

/-! ## Walking -/

/-- The walk down ends at the lower end of the window. -/
theorem wp_walkDown (hcode : code ≤ lastCode) (hinside : Inside w code) :
    (walkDown h cap code).wp (some w) (fun result _ => result = .ok w.1.toNat) r := by
  obtain ⟨hfrom, hto⟩ := hinside
  induction code generalizing r with
  | zero =>
    have hend : 0 = w.1.toNat := by omega
    exact congrArg Except.ok hend
  | succ code ih =>
    rw [walkDown, wp_bind, wp_probe (by omega), between_ok]
    split
    · next hhigh =>
      have hbelow := voltageOf_eq_high.1 hhigh
      have hend : code + 1 = w.1.toNat := by omega
      exact congrArg Except.ok hend
    · next hhigh =>
      have hbelow : ¬ code < w.1.toNat := fun hlt => hhigh (voltageOf_eq_high.2 hlt)
      exact ih (by omega) (by omega) (by omega)

/-- The upper end of a window among the codes that there are. -/
def upperOf (w : Byte × Byte) : Nat :=
  min w.2.toNat lastCode

/-- The walk up ends at the upper end of the window. -/
theorem wp_walkUp {room : Nat} (hroom : code + room = lastCode) (hinside : Inside w code) :
    (walkUp h cap room code).wp (some w) (fun result _ => result = .ok (upperOf w)) r := by
  obtain ⟨hfrom, hto⟩ := hinside
  -- induction on the codes above; what has been passed so far is inside the window
  induction room generalizing code r with
  | zero =>
    have hend : code = upperOf w := by
      unfold upperOf
      omega
    exact congrArg Except.ok hend
  | succ room ih =>
    rw [walkUp, wp_bind, wp_probe (by omega), between_ok]
    split
    · next hlow =>
      obtain ⟨-, habove⟩ := voltageOf_eq_low.1 hlow
      have hend : code = upperOf w := by
        unfold upperOf
        omega
      exact congrArg Except.ok hend
    · next hlow =>
      have habove : ¬ w.2.toNat < code + 1 := fun hlt =>
        hlow (voltageOf_eq_low.2 ⟨by omega, hlt⟩)
      exact ih (by omega) (by omega) (by omega)

theorem wp_upperEnd (hcode : code ≤ lastCode) (hinside : Inside w code) :
    (upperEnd h cap code).wp (some w) (fun result _ => result = .ok (upperOf w)) r := by
  have hnormal : voltageOf w code = .normal := voltageOf_eq_normal.2 hinside
  rw [upperEnd, wp_bind, wp_probe hcode, between_ok, hnormal]
  exact wp_walkUp (by omega) hinside

/-! ## Tuning -/

/-- Setting a trim code keeps the two bits above it. -/
theorem upperBits_set (h : Half) (cap : Byte) (trim : BitVec 6) :
    ((Pll.vcoCap h).set cap trim).extractLsb' 6 2 = cap.extractLsb' 6 2 := by
  apply BitVec.eq_of_getLsbD_eq
  intro i hi
  have hout : ¬ ((Pll.vcoCap h).offset ≤ 6 + i ∧ 6 + i < (Pll.vcoCap h).offset + 6) := by
    show ¬ (0 ≤ 6 + i ∧ 6 + i < 0 + 6)
    omega
  rw [BitVec.getLsbD_extractLsb', BitVec.getLsbD_extractLsb', BitField.getLsbD_set, if_neg hout]

/-- In a window with a lock, tuning settles on the code halfway between its two ends, and keeps the
rest of the capacitor byte. -/
theorem wp_tune (hw : Locks w) (h : Half) (r : RegisterFile) :
    (tune h).wp (some w) (fun result r' => result = .ok () ∧
      r'.get (Pll.vcoCap h).address = (Pll.vcoCap h).set (r.get (Pll.vcoCap h).address)
        (BitVec.ofNat 6 ((w.1.toNat + upperOf w) / 2))) r := by
  obtain ⟨target, hpos, hlast, hinside⟩ := hw
  have hstored : (Site.at (Pll.vcoCap h).address).isStored := by cases h <;> rfl
  have hspan : span 5 = 31 := rfl
  rw [tune, wp_bind, wp_readByte hstored, between_ok, wp_bind]
  refine wp_mono (wp_search hinside 5 (by decide) (by decide) ?_ ?_)
    fun result r₁ hfound => ?_
  · rw [hspan, firstCode]
    omega
  · rw [hspan, firstCode]
    unfold lastCode at hlast
    omega
  obtain ⟨found, rfl, hcode, hfrom, hto⟩ := hfound
  rw [between_ok]
  show (walkDown h _ found >>= _).wp _ _ r₁
  rw [wp_bind]
  -- the search has got inside the window, and both walks leave it at their ends
  refine wp_mono (wp_walkDown hcode ⟨hfrom, hto⟩) fun result r₂ hlower => ?_
  obtain rfl := hlower
  rw [between_ok, wp_bind, wp_log, between_ok, wp_bind]
  refine wp_mono (wp_upperEnd hcode ⟨hfrom, hto⟩) fun result r₃ hupper => ?_
  obtain rfl := hupper
  -- the middle lies between the two ends, so the last probe reads a voltage in the window
  have hmiddle : Inside w ((w.1.toNat + upperOf w) / 2) ∧
      (w.1.toNat + upperOf w) / 2 ≤ lastCode := by
    unfold Inside upperOf
    omega
  have hnormal := voltageOf_eq_normal.2 hmiddle.1
  rw [between_ok, wp_bind, wp_log, between_ok, wp_bind, wp_log, between_ok, wp_bind,
    wp_probe hmiddle.2, between_ok, hnormal]
  exact ⟨rfl, RegisterFile.get_set_self _ _ _⟩

/-- In a window without a lock, tuning fails. -/
theorem wp_tune_of_not_locks (hw : ¬ Locks w) (h : Half) (r : RegisterFile) :
    (tune h).wp (some w) (fun result _ => result = .error .unexpectedState) r := by
  have hstored : (Site.at (Pll.vcoCap h).address).isStored := by cases h <;> rfl
  rw [tune, wp_bind, wp_readByte hstored, between_ok, wp_bind]
  refine wp_mono (wp_search_none hw 5 (by decide) (by decide)) fun result _ hnone => ?_
  rw [hnone]
  rfl

/-! ## Tuning to a frequency -/

/-- Up to the tuning, the capacitor byte is left alone. -/
theorem get_prepared_vcoCap (h : Half) (hz : Nat) (d : Divider) (r : RegisterFile) :
    (prepared h hz d (clocked true r)).get (Pll.vcoCap h).address =
      r.get (Pll.vcoCap h).address := by
  cases h <;> simp +decide [prepared, divided, clocked, RegisterFile.assign, RegisterFile.get_set]

/-- In a window with a lock, every half can be tuned to every request. -/
theorem wp_setFrequency_locks (hw : Locks w) (h : Half) (request : Nat) (r : RegisterFile) :
    (setFrequency h request).wp (some w) (fun result _ => result = .ok (Divider.ofHz request))
      r := by
  rw [wp_setFrequency, wp_program_tune]
  refine wp_mono (wp_tune hw h _) fun result _ htuned => ?_
  rw [htuned.1]
  rfl

/-- In a window with a lock, a half that is tuned to a frequency has its trim code halfway between
the ends of the window, and the rest of its capacitor byte as before. -/
theorem wp_setFrequency_middle (hw : Locks w) (h : Half) (request : Nat) (r : RegisterFile) :
    (setFrequency h request).wp (some w) (fun result r' => result = .ok (Divider.ofHz request) ∧
      r'.get (Pll.vcoCap h).address = (Pll.vcoCap h).set (r.get (Pll.vcoCap h).address)
        (BitVec.ofNat 6 ((w.1.toNat + upperOf w) / 2))) r := by
  rw [wp_setFrequency, wp_program_tune]
  refine wp_mono (wp_tune hw h _) fun result r' htuned => ?_
  obtain ⟨rfl, hcap⟩ := htuned
  rw [get_prepared_vcoCap] at hcap
  exact ⟨rfl, (get_clocked_vcoCap h false r').trans hcap⟩

/-- In a window without a lock, no half can be tuned. -/
theorem wp_setFrequency_of_not_locks (hw : ¬ Locks w) (h : Half) (request : Nat)
    (r : RegisterFile) :
    (setFrequency h request).wp (some w) (fun result _ => result = .error .unexpectedState) r := by
  rw [wp_setFrequency, wp_program_tune]
  refine wp_mono (wp_tune_of_not_locks hw h _) fun result _ hfailed => ?_
  rw [hfailed]
  rfl

/-- However the tuning ends, both modulators are without a clock afterwards. -/
theorem wp_setFrequency_unclocked {window : Option (Byte × Byte)} (h : Half) (request : Nat)
    (r : RegisterFile) :
    (setFrequency h request).wp window (fun _ r' =>
      r'.flag Clock.txDsm = false ∧ r'.flag Clock.rxDsm = false) r := by
  rw [wp_setFrequency]
  exact wp_mono (wp_true _ _) fun _ r' _ => flags_clocked false r'

/-- On a chip that refuses no access and whose comparators follow a window of trim codes, tuning to
any frequency lands in the middle of the window. It succeeds exactly when there is a code in the
window other than the least of all codes, which the search does not get to. The upper bits of the
capacitor byte are kept, and the modulators are without a clock in the end either way. -/
theorem setFrequency_lands_mid_window (h : Half) (request : Nat) (c : Chip) (lo hi : Byte)
    (hread : c.failRead = none) (hwrite : c.failWrite = none) (hwindow : c.window = some (lo, hi))
    (hvoltages : c.voltages = []) :
    let o := (setFrequency h request).run Chip.transport c
    let reached := lo.toNat ≤ hi.toNat ∧ lo.toNat ≤ 63 ∧ 1 ≤ hi.toNat
    let cap := Pll.vcoCap h
    ((∃ d, o.result = .ok d) ↔ reached) ∧
    (reached → o.result = .ok (Divider.ofHz request) ∧
      (o.state.registers.field cap).toNat = (lo.toNat + min hi.toNat 63) / 2 ∧
      (o.state.registers.get cap.address).extractLsb' 6 2 =
        (c.registers.get cap.address).extractLsb' 6 2) ∧
    (¬ reached → o.result = .error .unexpectedState) ∧
    (lo.toNat ≤ hi.toNat → lo.toNat ≤ 63 →
      (o.result = .error .unexpectedState ↔ lo = 0 ∧ hi = 0)) ∧
    o.state.registers.flag Clock.txDsm = false ∧ o.state.registers.flag Clock.rxDsm = false := by
  intro o reached cap
  have hc : c.Obeys (some (lo, hi)) := by
    refine ⟨hread, hwrite, fun w hw => ?_⟩
    obtain rfl : (lo, hi) = w := Option.some.inj hw
    exact ⟨hwindow, hvoltages⟩
  have hreached : Locks (lo, hi) ↔ reached := locks_iff
  have hlands (hr : reached) := (wp_run hc (wp_setFrequency_middle (hreached.2 hr) h request _)).2
  have hfails (hr : ¬ reached) :=
    (wp_run hc (wp_setFrequency_of_not_locks (mt hreached.1 hr) h request _)).2
  -- the two cases exclude each other, so what is returned tells which one it is
  have hreached_of_ok {d : Divider} (hd : o.result = .ok d) : reached := by
    by_contra hr
    cases hd.symm.trans (hfails hr)
  refine ⟨⟨fun ⟨_, hd⟩ => hreached_of_ok hd, fun hr => ⟨_, (hlands hr).1⟩⟩,
    fun hr => ⟨(hlands hr).1, ?_, ?_⟩, hfails, fun hle hlast => ?_,
    (wp_run hc (wp_setFrequency_unclocked h request _)).2⟩
  · rw [RegisterFile.field, (hlands hr).2, BitField.get_set_self, BitVec.toNat_ofNat]
    unfold upperOf lastCode
    dsimp only
    omega
  · rw [(hlands hr).2, upperBits_set]
  · have hzero : lo = 0 ∧ hi = 0 ↔ ¬ reached := by
      rw [BitVec.toNat_inj.symm, BitVec.toNat_inj.symm]
      show lo.toNat = 0 ∧ hi.toNat = 0 ↔ ¬ (lo.toNat ≤ hi.toNat ∧ lo.toNat ≤ 63 ∧ 1 ≤ hi.toNat)
      omega
    rw [hzero]
    refine ⟨fun hfailed hr => ?_, hfails⟩
    cases hfailed.symm.trans (hlands hr).1

/-- A window that goes beyond the last code is cut off there, and the window of the least code alone
is not found. -/
theorem setFrequency_lands_mid_window_edges :
    let tuned (lo hi : Byte) := (setFrequency .rx 1000000000).run Chip.transport
      { Chip.initial with registers := .filled 0xff, window := some (lo, hi) }
    ((tuned 60 200).result = .ok (Divider.ofHz 1000000000) ∧
      ((tuned 60 200).state.registers.field (Pll.vcoCap .rx)).toNat = 61 ∧
      ((tuned 60 200).state.registers.get (Pll.vcoCap .rx).address).extractLsb' 6 2 = 3) ∧
    (tuned 0 0).result = .error .unexpectedState ∧
    (tuned 0 0).state.registers.flag Clock.rxDsm = false := by
  intro tuned
  have hlands (lo hi : Byte) := setFrequency_lands_mid_window .rx 1000000000
    { Chip.initial with registers := .filled 0xff, window := some (lo, hi) } lo hi rfl rfl rfl rfl
  obtain ⟨-, hinside, -⟩ := hlands 60 200
  obtain ⟨-, -, hmissed, -, -, hunclocked⟩ := hlands 0 0
  obtain ⟨hresult, hfield, hupper⟩ := hinside (by decide)
  exact ⟨⟨hresult, hfield, hupper⟩, hmissed (by decide), hunclocked⟩

end Transceiver.Synthesizer
