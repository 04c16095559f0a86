import Mathlib.Order.Bounds.Basic
import Transceiver.Proofs.PlainRegisters
import Transceiver.Proofs.Settings

/-!
# Selecting a bandwidth

A request in Hz gets the narrowest bandwidth that lets it through. The table of bandwidths is kept
with the widest first and is searched from its end, so the first bandwidth found is the narrowest,
and only a request wider than all of them finds none and falls back on the widest. What is stored is
the code of the bandwidth, and the code is decoded to the bandwidth again.
-/

namespace Transceiver.LowPass

open Procedure Register Chip

namespace Bandwidth

/-! ## The table -/

theorem mem_byCode (b : Bandwidth) : b ∈ byCode.toList.reverse := by
  cases b <;> decide

/-- From its end the table runs from the narrowest bandwidth to the widest. -/
theorem ascending : byCode.toList.reverse.Pairwise fun b b' => b.hz < b'.hz := by
  decide

theorem hz_injective {b b' : Bandwidth} (h : b.hz = b'.hz) : b = b' := by
  cases b <;> cases b' <;> first | rfl | (simp [hz] at h)

/-- There is no bandwidth wider than 28 MHz. -/
theorem hz_le_widest (b : Bandwidth) : b.hz ≤ Bandwidth.mhz28.hz := by
  cases b <;> decide

/-! ## The search -/

/-- The first bandwidth found is the narrowest that lets the request through. -/
theorem isLeast_of_find? {request : Nat} {b : Bandwidth}
    (h : (byCode.toList.reverse.find? fun b => decide (request ≤ b.hz)) = some b) :
    IsLeast {hz | request ≤ hz ∧ ∃ b : Bandwidth, b.hz = hz} b.hz := by
  obtain ⟨hfits, before, after, hsplit, hbefore⟩ := List.find?_eq_some_iff_append.1 h
  refine ⟨⟨by simpa using hfits, b, rfl⟩, ?_⟩
  rintro _ ⟨hother, other, rfl⟩
  -- what comes before is too narrow, and what comes after is wider
  have hmem : other ∈ before ++ b :: after := hsplit ▸ other.mem_byCode
  have hascending : (before ++ b :: after).Pairwise fun b b' => b.hz < b'.hz := hsplit ▸ ascending
  rcases List.mem_append.1 hmem with hin | hin
  · have hnarrow := hbefore other hin
    simp only [Bool.not_eq_true', decide_eq_false_iff_not] at hnarrow
    exact absurd hother hnarrow
  · rcases List.mem_cons.1 hin with rfl | hin
    · exact le_refl _
    · have htail := (List.pairwise_append.1 hascending).2.1
      exact (List.rel_of_pairwise_cons htail hin).le

theorem isLeast_ofHz {request : Nat} (h : ∃ b : Bandwidth, request ≤ b.hz) :
    IsLeast {hz | request ≤ hz ∧ ∃ b : Bandwidth, b.hz = hz} (ofHz request).hz := by
  obtain ⟨b, hfits⟩ := h
  have hfound : ((byCode.toList.reverse.find? fun b => decide (request ≤ b.hz))).isSome :=
    List.find?_isSome.2 ⟨b, b.mem_byCode, decide_eq_true hfits⟩
  obtain ⟨found, hfound⟩ := Option.isSome_iff_exists.1 hfound
  rw [ofHz, hfound]
  exact isLeast_of_find? hfound

theorem ofHz_of_wide {request : Nat} (h : ∀ b : Bandwidth, b.hz < request) :
    ofHz request = .mhz28 := by
  have hnone : (byCode.toList.reverse.find? fun b => decide (request ≤ b.hz)) = none := by
    apply List.find?_eq_none.2
    intro b _
    simpa using h b
  rw [ofHz, hnone]
  rfl

/-- Of two requests, the wider one does not get the narrower bandwidth. -/
theorem ofHz_mono {request other : Nat} (h : request ≤ other) :
    (ofHz request).hz ≤ (ofHz other).hz := by
  by_cases hwide : ∀ b : Bandwidth, b.hz < other
  · rw [ofHz_of_wide hwide]
    exact hz_le_widest _
  · simp only [not_forall, Nat.not_lt] at hwide
    obtain ⟨b, hb⟩ := hwide
    have hleast := isLeast_ofHz ⟨b, h.trans hb⟩
    have hother := (isLeast_ofHz ⟨b, hb⟩).1
    -- the bandwidth of the wider request lets the other one through, too
    exact hleast.2 ⟨h.trans hother.1, ofHz other, rfl⟩

/-- To request the width of a bandwidth is to request the bandwidth. -/
theorem ofHz_hz (b : Bandwidth) : ofHz b.hz = b := by
  have hleast := isLeast_ofHz ⟨b, le_refl b.hz⟩
  apply hz_injective
  exact le_antisymm (hleast.2 ⟨le_refl _, b, rfl⟩) hleast.1.1

end Bandwidth

/-! ## Runs -/

variable {c : Chip}

theorem memory_bandwidth (half : Half) : Site.at (Lpf.bandwidth half).address = .memory := by
  cases half <;> rfl

/-- A request gets its bandwidth, and the field of the bandwidth is all that is set. -/
theorem run_setBandwidthHz (half : Half) (hc : c.Serves (Lpf.bandwidth half).address)
    (request : Nat) :
    let o := (setBandwidthHz half request).run transport c
    o.result = .ok (Bandwidth.ofHz request) ∧
      o.state = { c with
        registers := c.registers.assign (Lpf.bandwidth half) (Bandwidth.ofHz request).code } := by
  intro o
  have hassign : (setBandwidth half (Bandwidth.ofHz request)).run transport c = _ :=
    run_modify_plain hc (memory_bandwidth half)
      ((Lpf.bandwidth half).set · (Bandwidth.ofHz request).code)
  have hresult :
      ((setBandwidth half (Bandwidth.ofHz request)).run transport c).result = .ok () := by
    rw [hassign]
  have ho : o = _ := run_bind_of_ok transport (fun _ => pure (Bandwidth.ofHz request)) hresult
  rw [ho, hassign]
  exact ⟨rfl, rfl⟩

/-- The bandwidth that is read is the one whose code is stored, and nothing is changed. -/
theorem run_bandwidth (half : Half) (hc : c.Serves (Lpf.bandwidth half).address) :
    let o := (bandwidth half).run transport c
    o.result = .ok (Bandwidth.ofCode (c.registers.field (Lpf.bandwidth half))) ∧ o.state = c := by
  intro o
  have hload : (load (Lpf.bandwidth half)).run transport c = _ :=
    run_map _ (Lpf.bandwidth half).get (readByte (Lpf.bandwidth half).address) c
  have ho : o = _ := run_map _ Bandwidth.ofCode (load (Lpf.bandwidth half)) c
  rw [ho, hload, run_readByte_plain hc (memory_bandwidth half)]
  exact ⟨rfl, rfl⟩

/-- On a chip, a request in Hz selects a bandwidth and nothing else comes of it. -/
structure Selects (half : Half) (c : Chip) (request : Nat) (b : Bandwidth) : Prop where
  /-- Among the bandwidths that let the request through, none is narrower. -/
  narrowest : (∃ b : Bandwidth, request ≤ b.hz) →
    IsLeast {hz | request ≤ hz ∧ ∃ b : Bandwidth, b.hz = hz} b.hz
  /-- If no bandwidth lets the request through, none is wider. -/
  widest : (∀ b : Bandwidth, b.hz < request) →
    IsGreatest {hz | ∃ b : Bandwidth, b.hz = hz} b.hz
  returned : ((setBandwidthHz half request).run transport c).result = .ok b
  /-- Only the bits of the bandwidth are changed, and only in its register. -/
  confined :
    let c' := ((setBandwidthHz half request).run transport c).state
    c' = { c with registers := c'.registers } ∧
      c.registers.AgreeOutside [(Lpf.bandwidth half).bits] c'.registers
  /-- The bandwidth is what is read afterwards. -/
  shown :
    let c' := ((setBandwidthHz half request).run transport c).state
    ((bandwidth half).run transport c').result = .ok b ∧
      ((bandwidth half).run transport c').state = c'

theorem selects (half : Half) (hc : c.Serves (Lpf.bandwidth half).address) (request : Nat) :
    Selects half c request (Bandwidth.ofHz request) := by
  obtain ⟨hresult, hstate⟩ := run_setBandwidthHz half hc request
  have hc' : ((setBandwidthHz half request).run transport c).state.Serves
      (Lpf.bandwidth half).address := by
    rw [hstate]
    exact ⟨hc.reads, hc.writes⟩
  -- what is shown afterwards is the code that has been written
  have hfield : ((setBandwidthHz half request).run transport c).state.registers.field
      (Lpf.bandwidth half) = (Bandwidth.ofHz request).code := by
    rw [hstate]
    exact RegisterFile.field_assign_self _ _ _
  refine {
    narrowest := Bandwidth.isLeast_ofHz
    widest := fun hwide => ?_
    returned := hresult
    confined := ?_
    shown := ?_ }
  · rw [Bandwidth.ofHz_of_wide hwide]
    refine ⟨⟨_, rfl⟩, ?_⟩
    rintro _ ⟨b, rfl⟩
    exact b.hz_le_widest
  · rw [hstate]
    exact ⟨rfl, RegisterFile.agreeOutside_set List.mem_cons_self c.registers _⟩
  · obtain ⟨hread, hkept⟩ := run_bandwidth half hc'
    rw [hfield, Bandwidth.ofCode_code] at hread
    exact ⟨hread, hkept⟩

/-- Every request selects the least upper bound that there is, and finds it stored. Wider requests
do not get narrower bandwidths, and the width of a bandwidth gets the bandwidth itself. -/
theorem selects_least_upper_bound (half : Half) (c : Chip)
    (hc : c.Serves (Lpf.bandwidth half).address) :
    (∀ request, Selects half c request (Bandwidth.ofHz request)) ∧
      (∀ request other, request ≤ other →
        (Bandwidth.ofHz request).hz ≤ (Bandwidth.ofHz other).hz) ∧
      ∀ b : Bandwidth, Bandwidth.ofHz b.hz = b :=
  ⟨fun request => selects half hc request, fun _ _ h => Bandwidth.ofHz_mono h, Bandwidth.ofHz_hz⟩

/-- At power on no access is refused, and 6 MHz and a little more get the next bandwidth, 7 MHz. -/
theorem selects_least_upper_bound_initial :
    initial.Serves (Lpf.bandwidth .rx).address ∧ Selects .rx initial 6000001 .mhz7 := by
  have hc : initial.Serves (Lpf.bandwidth .rx).address := ⟨nofun, nofun⟩
  exact ⟨hc, (selects_least_upper_bound .rx initial hc).1 6000001⟩

end Transceiver.LowPass
