import Transceiver.Proofs.TuningBytes

/-!
# Tuning by whatever is read

The comparators of a tuning voltage may show anything, at odds with any window and with what they
have shown before. Tuning makes no sense of that, but it follows it: what it does is a course of
probes, and where it ends is settled by them alone. A reading that stands for no voltage ends the
course at once.
-/

namespace Transceiver.Synthesizer

open Procedure Register

/-! ## Probes -/

/-- A probe: the trim code that has been set, and what the comparators have shown then. -/
structure Probe where
  code : Nat
  shown : Byte
deriving DecidableEq

namespace Probe

variable (h : Half)

/-- The voltage that a probe stands for. -/
def reading (p : Probe) : Except Fault TuningVoltage :=
  TuningVoltage.ofCode ((Pll.vtune h).get p.shown).toNat

/-- A probe reads a voltage. -/
def Reads (p : Probe) (v : TuningVoltage) : Prop :=
  p.reading h = .ok v

/-- The accesses of a probe, with the trim code set in the capacitor byte `cap`. -/
def accesses (cap : Byte) (p : Probe) : List Event := [
  .write (Pll.vcoCap h).address ((Pll.vcoCap h).set cap (BitVec.ofNat 6 p.code)) true,
  .read (Pll.vtune h).address (some p.shown)]

variable {h} {p : Probe} {v v' : TuningVoltage}

/-- A probe reads one voltage at most. -/
theorem Reads.unique (hv : p.Reads h v) (hv' : p.Reads h v') : v = v' :=
  Except.ok.inj (hv.symm.trans hv')

/-- Only one pattern stands for no voltage. -/
theorem reading_eq_error {fault : Fault} :
    p.reading h = .error fault ↔ (Pll.vtune h).get p.shown = 3 ∧ fault = .unexpectedState := by
  unfold reading
  generalize (Pll.vtune h).get p.shown = pattern
  have hpatterns : pattern = 0 ∨ pattern = 1 ∨ pattern = 2 ∨ pattern = 3 := by
    revert pattern
    decide
  rcases hpatterns with rfl | rfl | rfl | rfl <;> simp [TuningVoltage.ofCode, eq_comm]

end Probe

variable {h : Half} {v : TuningVoltage}

/-! ## Scans -/

/-- Probing some codes in order until a voltage is read for the first time. The last argument is the
code at which that happened, if it did. -/
inductive Scan (h : Half) (v : TuningVoltage) : List Nat → List Probe → Option Nat → Prop
  | exhausted : Scan h v [] [] none
  | reached {p : Probe} (codes : List Nat) (hp : p.Reads h v) :
    Scan h v (p.code :: codes) [p] (some p.code)
  | passed {p : Probe} {other : TuningVoltage} {codes : List Nat} {probes : List Probe}
    {first : Option Nat} (hp : p.Reads h other) (hne : other ≠ v)
    (rest : Scan h v codes probes first) : Scan h v (p.code :: codes) (p :: probes) first

namespace Scan

variable {codes : List Nat} {probes : List Probe} {first : Option Nat}

/-- The code at which a scan ends is one of those that it was to go through. -/
theorem mem_of_some {code : Nat} (hs : Scan h v codes probes (some code)) : code ∈ codes := by
  generalize hfirst : some code = first at hs
  induction hs with
  | exhausted => cases hfirst
  | reached codes hp =>
    obtain rfl := Option.some.inj hfirst
    exact List.mem_cons_self
  | passed hp hne rest ih => exact List.mem_cons_of_mem _ (ih hfirst)

/-- A scan that does not get to the voltage does not read it. -/
theorem not_reads_of_none (hs : Scan h v codes probes none) : ∀ p ∈ probes, ¬ p.Reads h v := by
  generalize hfirst : none = first at hs
  induction hs with
  | exhausted => simp
  | reached codes hp => cases hfirst
  | passed hp hne rest ih =>
    exact List.forall_mem_cons.2 ⟨fun hv => hne (hp.unique hv), ih hfirst⟩

/-- A scan that gets to the voltage reads it with its last probe only. -/
theorem exists_of_some {code : Nat} (hs : Scan h v codes probes (some code)) :
    ∃ before reached, probes = before ++ [reached] ∧ reached.code = code ∧ reached.Reads h v ∧
      ∀ p ∈ before, ¬ p.Reads h v := by
  generalize hfirst : some code = first at hs
  induction hs with
  | exhausted => cases hfirst
  | @reached p codes hp =>
    exact ⟨[], p, rfl, (Option.some.inj hfirst).symm, hp, by simp⟩
  | @passed p _ _ _ _ hp hne rest ih =>
    obtain ⟨before, reached, rfl, hcode, hreads, hbefore⟩ := ih hfirst
    refine ⟨p :: before, reached, rfl, hcode, hreads, ?_⟩
    exact List.forall_mem_cons.2 ⟨fun hv => hne (hp.unique hv), hbefore⟩

end Scan

/-! ## Readings -/

/-- Every probe has set one of the codes that there are, and reads a voltage. -/
def Readable (h : Half) (probes : List Probe) : Prop :=
  ∀ p ∈ probes, p.code ≤ lastCode ∧ ∃ v, p.Reads h v

/-- The last probe, and no other, stands for no voltage. -/
def Stopped (h : Half) (fault : Fault) (probes : List Probe) : Prop :=
  ∃ before last, probes = before ++ [last] ∧ Readable h before ∧ last.code ≤ lastCode ∧
    last.reading h = .error fault

/-- A part of tuning goes on as long as voltages are read. -/
def Follows {α : Type} (h : Half) : Except Fault α → List Probe → Prop
  | .ok _, probes => Readable h probes
  | .error fault, probes => Stopped h fault probes

/-- Readable probes after readable ones are readable. -/
theorem Readable.append {probes probes' : List Probe} (hprobes : Readable h probes)
    (hprobes' : Readable h probes') : Readable h (probes ++ probes') :=
  List.forall_mem_append.2 ⟨hprobes, hprobes'⟩

/-- Readable probes before those that stop are stopped in the end as well. -/
theorem Readable.stopped {probes probes' : List Probe} {fault : Fault}
    (hprobes : Readable h probes) (hprobes' : Stopped h fault probes') :
    Stopped h fault (probes ++ probes') := by
  obtain ⟨before, last, rfl, hbefore, hlast⟩ := hprobes'
  exact ⟨probes ++ before, last, (List.append_assoc _ _ _).symm, hprobes.append hbefore, hlast⟩

theorem readable_singleton {p : Probe} (hcode : p.code ≤ lastCode) (hp : p.Reads h v) :
    Readable h [p] :=
  List.forall_mem_singleton.2 ⟨hcode, v, hp⟩

/-- A probe that reads a voltage may come before whatever follows. -/
theorem Follows.cons {α : Type} {result : Except Fault α} {p : Probe} {probes : List Probe}
    (hcode : p.code ≤ lastCode) (hp : p.Reads h v) (hprobes : Follows h result probes) :
    Follows h result (p :: probes) := by
  have hfirst := readable_singleton hcode hp
  cases result with
  | ok a => exact hfirst.append hprobes
  | error fault => exact hfirst.stopped hprobes

/-! ## Probing -/

section Probing

variable {σ α β : Type} (t : Transport σ) (h : Half) (cap : Byte)

/-- If no access is refused, a run of the procedure does nothing but probe, and its result and its
probes satisfy `post`. -/
def Probing (post : Except Fault α → List Probe → Prop) (p : Procedure α) : Prop :=
  ∀ s : σ, (∀ e ∈ (p.run t s).events, e.isRefused = false) →
    ∃ probes, (p.run t s).events.filter Event.isAccess = probes.flatMap (Probe.accesses h cap) ∧
      post (p.run t s).result probes

variable {t h cap} {post post' : Except Fault α → List Probe → Prop}

/-- What follows from the postcondition of probes is a postcondition of them too. -/
theorem Probing.mono {p : Procedure α} (hp : Probing t h cap post p)
    (hpost : ∀ result probes, post result probes → post' result probes) :
    Probing t h cap post' p := by
  intro s haccepted
  obtain ⟨probes, hevents, hresult⟩ := hp s haccepted
  exact ⟨probes, hevents, hpost _ _ hresult⟩

theorem probing_pure {a : α} (ha : post (.ok a) []) : Probing t h cap post (pure a) :=
  fun _ _ => ⟨[], rfl, ha⟩

theorem probing_fail {fault : Fault} (hfault : post (.error fault) []) :
    Probing t h cap post (fail fault) :=
  fun _ _ => ⟨[], rfl, hfault⟩

/-- A note makes no probe. -/
theorem probing_log_bind {entry : Note} {f : Unit → Procedure α}
    (hf : Probing t h cap post (f ())) : Probing t h cap post (log entry >>= f) := by
  intro s haccepted
  have hrun : (log entry >>= f).run t s = ⟨((f ()).run t s).result, ((f ()).run t s).state,
      .note entry :: ((f ()).run t s).events⟩ := rfl
  rw [hrun] at haccepted ⊢
  exact hf s fun e he => haccepted e (List.mem_cons_of_mem _ he)

/-- The probes of a sequence are those of its parts, one after the other. -/
theorem Probing.bind {p : Procedure α} {f : α → Procedure β}
    {postf : Except Fault β → List Probe → Prop} (hp : Probing t h cap post p)
    (hok : ∀ a probes, post (.ok a) probes →
      Probing t h cap (fun result rest => postf result (probes ++ rest)) (f a))
    (herror : ∀ fault probes, post (.error fault) probes → postf (.error fault) probes) :
    Probing t h cap postf (p >>= f) := by
  intro s haccepted
  cases hr : (p.run t s).result with
  | error fault =>
    rw [run_bind_of_error t f hr] at haccepted ⊢
    obtain ⟨probes, hevents, hresult⟩ := hp s haccepted
    exact ⟨probes, hevents, herror fault probes (hr ▸ hresult)⟩
  | ok a =>
    rw [run_bind_of_ok t f hr] at haccepted ⊢
    obtain ⟨hfirst, hsecond⟩ := List.forall_mem_append.1 haccepted
    obtain ⟨probes, hevents, hresult⟩ := hp s hfirst
    obtain ⟨rest, hevents', hresult'⟩ := hok a probes (hr ▸ hresult) _ hsecond
    refine ⟨probes ++ rest, ?_, hresult'⟩
    rw [List.filter_append, hevents, hevents', List.flatMap_append]

/-- A run without a refusal that begins with a write goes on after it. -/
theorem run_writeByte_bind {address : Address} {value : Byte} {f : Unit → Procedure α} {s : σ}
    (haccepted : ∀ e ∈ ((writeByte address value >>= f).run t s).events, e.isRefused = false) :
    ∃ s', (writeByte address value >>= f).run t s = ⟨((f ()).run t s').result,
      ((f ()).run t s').state, .write address value true :: ((f ()).run t s').events⟩ := by
  rw [run_bind, run_writeByte] at haccepted ⊢
  generalize t.write address value s = written at haccepted ⊢
  rcases written with ⟨_ | _, s'⟩
  · cases haccepted _ (List.mem_singleton_self _)
  · exact ⟨s', rfl⟩

/-- A run without a refusal that begins with a read goes on with what was answered. -/
theorem run_readByte_bind {address : Address} {f : Byte → Procedure α} {s : σ}
    (haccepted : ∀ e ∈ ((readByte address >>= f).run t s).events, e.isRefused = false) :
    ∃ value s', (readByte address >>= f).run t s = ⟨((f value).run t s').result,
      ((f value).run t s').state, .read address (some value) :: ((f value).run t s').events⟩ := by
  rw [run_bind, run_readByte] at haccepted ⊢
  generalize t.read address s = answered at haccepted ⊢
  rcases answered with ⟨_ | value, s'⟩
  · cases haccepted _ (List.mem_singleton_self _)
  · exact ⟨value, s', rfl⟩

/-- So does one that begins with the read of a field. -/
theorem run_load_bind {w : Nat} {field : BitField w} {f : BitVec w → Procedure α} {s : σ}
    (haccepted : ∀ e ∈ ((load field >>= f).run t s).events, e.isRefused = false) :
    ∃ value s', (load field >>= f).run t s = ⟨((f (field.get value)).run t s').result,
      ((f (field.get value)).run t s').state,
      .read field.address (some value) :: ((f (field.get value)).run t s').events⟩ := by
  simp only [load, LawfulMonad.bind_assoc, LawfulMonad.pure_bind] at haccepted ⊢
  exact run_readByte_bind haccepted

/-- A probe is an access to two registers, and the reading is its result. -/
theorem probing_probe (code : Nat) :
    Probing t h cap (fun result probes => ∃ shown : Byte,
      probes = [⟨code, shown⟩] ∧ result = Probe.reading h ⟨code, shown⟩) (probe h cap code) := by
  intro s haccepted
  unfold probe at haccepted ⊢
  obtain ⟨s', hwritten⟩ := run_writeByte_bind haccepted
  rw [hwritten] at haccepted ⊢
  obtain ⟨shown, s'', hread⟩ := run_load_bind fun e he =>
    haccepted e (List.mem_cons_of_mem _ he)
  rw [hread]
  refine ⟨[⟨code, shown⟩], ?_, shown, rfl, ?_⟩
  · cases TuningVoltage.ofCode ((Pll.vtune h).get shown).toNat <;> rfl
  · unfold Probe.reading
    cases TuningVoltage.ofCode ((Pll.vtune h).get shown).toNat <;> rfl

/-- A sequence that begins with a probe goes on if the probe reads a voltage. -/
theorem probing_probe_bind {code : Nat} {f : TuningVoltage → Procedure α}
    (hreads : ∀ p : Probe, p.code = code → ∀ v, p.Reads h v →
      Probing t h cap (fun result rest => post result (p :: rest)) (f v))
    (hstopped : ∀ p : Probe, p.code = code → ∀ fault, p.reading h = .error fault →
      post (.error fault) [p]) :
    Probing t h cap post (probe h cap code >>= f) := by
  refine (probing_probe code).bind (fun v probes hprobed => ?_) fun fault probes hprobed => ?_
  · obtain ⟨shown, rfl, hreading⟩ := hprobed
    exact hreads ⟨code, shown⟩ rfl v hreading.symm
  · obtain ⟨shown, rfl, hreading⟩ := hprobed
    exact hstopped ⟨code, shown⟩ rfl fault hreading.symm

end Probing

/-! ## The loops -/

section Loops

variable {σ : Type} (t : Transport σ) (h : Half) (cap : Byte)

theorem stopped_singleton {p : Probe} {fault : Fault} (hcode : p.code ≤ lastCode)
    (hp : p.reading h = .error fault) : Stopped h fault [p] :=
  ⟨[], p, rfl, List.forall_mem_nil _, hcode, hp⟩

/-- A search is a scan for a code inside the window. -/
theorem probing_search {budget code step : Nat} (hsteady : Steady code step) :
    Probing t h cap (fun result probes => Follows h result probes ∧ probes.length ≤ budget ∧
      ∀ first, result = .ok first → ∃ codes, Scan h .normal codes probes first)
      (search h cap budget code step) := by
  -- induction on the budget; the next code depends on what the probe reads
  induction budget generalizing code step with
  | zero =>
    refine probing_pure ⟨List.forall_mem_nil _, Nat.le_refl 0, fun first hfirst => ?_⟩
    obtain rfl := Except.ok.inj hfirst
    exact ⟨[], .exhausted⟩
  | succ budget ih =>
    have hcode := hsteady.within
    have hnext {p : Probe} (hp : p.code = code) {v : TuningVoltage} (hv : p.Reads h v)
        (hne : v ≠ .normal) {next step' : Nat} (hsteady' : Steady next step') :
        Probing t h cap (fun result rest => Follows h result (p :: rest) ∧
          (p :: rest).length ≤ budget + 1 ∧
          ∀ first, result = .ok first → ∃ codes, Scan h .normal codes (p :: rest) first)
          (search h cap budget next step') := by
      refine (ih hsteady').mono fun result rest hrest => ?_
      obtain ⟨hfollows, hlength, hscan⟩ := hrest
      refine ⟨hfollows.cons (hp ▸ hcode) hv, Nat.succ_le_succ hlength, fun first hfirst => ?_⟩
      obtain ⟨codes, hcodes⟩ := hscan first hfirst
      exact ⟨_, .passed hv hne hcodes⟩
    refine probing_probe_bind (fun p hp v hv => ?_) fun p hp fault hfault => ?_
    · cases v with
      | normal =>
        refine probing_log_bind (probing_pure ⟨?_, by simp, fun first hfirst => ?_⟩)
        · exact readable_singleton (hp ▸ hcode) hv
        · obtain rfl := Except.ok.inj hfirst
          exact ⟨[p.code], hp ▸ .reached [] hv⟩
      | high => exact probing_log_bind (hnext hp hv (by decide) hsteady.add)
      | low => exact probing_log_bind (hnext hp hv (by decide) hsteady.sub)
    · exact ⟨stopped_singleton h (hp ▸ hcode) hfault, by simp, by simp⟩

/-- The lower end of the window, from the first code below at which the voltage is too high. -/
def lowestAfter : Option Nat → Nat
  | none => 0
  | some code => code + 1

/-- The upper end of the window, from the first code above at which the voltage is too low. -/
def highestBefore : Option Nat → Nat
  | none => lastCode
  | some code => code - 1

/-- The lower end of the window is not above the code from which it is sought. -/
theorem lowestAfter_le {code : Nat} {probes : List Probe} {first : Option Nat} {v : TuningVoltage}
    (hs : Scan h v (List.range code).reverse probes first) : lowestAfter first ≤ code := by
  cases first with
  | none => exact Nat.zero_le _
  | some found => exact List.mem_range.1 (List.mem_reverse.1 hs.mem_of_some)

/-- The walk down is a scan of the codes below for a voltage that is too high. -/
theorem probing_walkDown {code : Nat} (hcode : code ≤ lastCode) :
    Probing t h cap (fun result probes => Follows h result probes ∧ probes.length ≤ code ∧
      ∀ lower, result = .ok lower → ∃ first, Scan h .high (List.range code).reverse probes first ∧
        lower = lowestAfter first)
      (walkDown h cap code) := by
  induction code with
  | zero =>
    refine probing_pure ⟨List.forall_mem_nil _, Nat.le_refl 0, fun lower hlower => ?_⟩
    obtain rfl := Except.ok.inj hlower
    exact ⟨none, .exhausted, rfl⟩
  | succ code ih =>
    have hbelow : code ≤ lastCode := Nat.le_of_succ_le hcode
    have hcodes : (List.range (code + 1)).reverse = code :: (List.range code).reverse := by
      rw [List.range_succ, List.reverse_append]
      rfl
    rw [hcodes]
    refine probing_probe_bind (fun p hp v hv => ?_) fun p hp fault hfault => ?_
    · obtain rfl := hp
      split
      · next hhigh =>
        subst hhigh
        refine probing_pure ⟨readable_singleton hbelow hv, by simp, fun lower hlower => ?_⟩
        obtain rfl := Except.ok.inj hlower
        exact ⟨some p.code, .reached _ hv, rfl⟩
      · next hhigh =>
        refine (ih hbelow).mono fun result rest hrest => ?_
        obtain ⟨hfollows, hlength, hscan⟩ := hrest
        refine ⟨hfollows.cons hbelow hv, Nat.succ_le_succ hlength, fun lower hlower => ?_⟩
        obtain ⟨first, hfirst, hend⟩ := hscan lower hlower
        exact ⟨first, .passed hv hhigh hfirst, hend⟩
    · exact ⟨stopped_singleton h (hp ▸ hbelow) hfault, by simp, by simp⟩

/-- The walk up is a scan of the codes above for a voltage that is too low. -/
theorem probing_walkUp {room code : Nat} (hroom : code + room = lastCode) :
    Probing t h cap (fun result probes => Follows h result probes ∧ probes.length ≤ room ∧
      ∀ upper, result = .ok upper → ∃ first,
        Scan h .low (List.range' (code + 1) room) probes first ∧ upper = highestBefore first)
      (walkUp h cap room code) := by
  -- induction on the room above, with the codes ahead as the list to be scanned
  induction room generalizing code with
  | zero =>
    refine probing_pure ⟨List.forall_mem_nil _, Nat.le_refl 0, fun upper hupper => ?_⟩
    obtain rfl := Except.ok.inj hupper
    exact ⟨none, .exhausted, hroom⟩
  | succ room ih =>
    have habove : code + 1 ≤ lastCode := by omega
    rw [List.range'_succ]
    refine probing_probe_bind (fun p hp v hv => ?_) fun p hp fault hfault => ?_
    · split
      · next hlow =>
        subst hlow
        refine probing_pure ⟨readable_singleton (hp ▸ habove) hv, by simp, fun upper hupper => ?_⟩
        obtain rfl := Except.ok.inj hupper
        refine ⟨some p.code, hp ▸ .reached _ hv, ?_⟩
        rw [hp]
        rfl
      · next hlow =>
        refine (ih (show code + 1 + room = lastCode by omega)).mono fun result rest hrest => ?_
        obtain ⟨hfollows, hlength, hscan⟩ := hrest
        refine ⟨hfollows.cons (hp ▸ habove) hv, Nat.succ_le_succ hlength, fun upper hupper => ?_⟩
        obtain ⟨first, hfirst, hend⟩ := hscan upper hupper
        have hpassed := Scan.passed hv hlow hfirst
        rw [hp] at hpassed
        exact ⟨first, hpassed, hend⟩
    · exact ⟨stopped_singleton h (hp ▸ habove) hfault, by simp, by simp⟩

/-- The probes from which the upper end of the window follows: one of the code itself, and unless
that reads too low already, those of a scan of the codes above. -/
def UpperEnd (code upper : Nat) (again : Probe) (up : List Probe) : Prop :=
  again.code = code ∧
    ((again.Reads h .low ∧ up = [] ∧ upper = code) ∨
      (¬ again.Reads h .low ∧ ∃ first,
        Scan h .low (List.range' (code + 1) (lastCode - code)) up first ∧
          upper = highestBefore first))

variable {h} in
/-- The upper end of the window is a code. -/
theorem UpperEnd.le {code upper : Nat} {again : Probe} {up : List Probe} (hcode : code ≤ lastCode)
    (hup : UpperEnd h code upper again up) : upper ≤ lastCode := by
  obtain ⟨-, ⟨-, -, rfl⟩ | ⟨-, first, hscan, rfl⟩⟩ := hup
  · exact hcode
  · cases first with
    | none => exact Nat.le_refl _
    | some found =>
      have hfound := List.mem_range'_1.1 hscan.mem_of_some
      show found - 1 ≤ lastCode
      omega

/-- The upper end is sought by probing the code itself once more, and from there upwards unless that
reads too low. -/
theorem probing_upperEnd {code : Nat} (hcode : code ≤ lastCode) :
    Probing t h cap (fun result probes => Follows h result probes ∧
      probes.length ≤ lastCode - code + 1 ∧ ∀ upper, result = .ok upper → ∃ again up,
        probes = again :: up ∧ UpperEnd h code upper again up)
      (upperEnd h cap code) := by
  refine probing_probe_bind (fun p hp v hv => ?_) fun p hp fault hfault => ?_
  · split
    · next hlow =>
      subst hlow
      refine probing_pure ⟨readable_singleton (hp ▸ hcode) hv, by simp, fun upper hupper => ?_⟩
      obtain rfl := Except.ok.inj hupper
      exact ⟨p, [], rfl, hp, .inl ⟨hv, rfl, rfl⟩⟩
    · next hlow =>
      have hroom : code + (lastCode - code) = lastCode := by omega
      refine (probing_walkUp t h cap hroom).mono fun result rest hrest => ?_
      obtain ⟨hfollows, hlength, hscan⟩ := hrest
      refine ⟨hfollows.cons (hp ▸ hcode) hv, Nat.succ_le_succ hlength, fun upper hupper => ?_⟩
      exact ⟨p, rest, rfl, hp, .inr ⟨fun hv' => hlow (hv.unique hv'), hscan upper hupper⟩⟩
  · exact ⟨stopped_singleton h (hp ▸ hcode) hfault, by simp, by simp⟩

/-- How tuning can end, by its probes. -/
inductive Course : Except Fault Unit → List Probe → Prop
  /-- A probe reads no voltage. -/
  | stopped {fault : Fault} {probes : List Probe} (hstopped : Stopped h fault probes) :
    Course (.error fault) probes
  /-- The search finds no code inside the window. -/
  | missed {codes : List Nat} {probes : List Probe} (hreadable : Readable h probes)
    (hscan : Scan h .normal codes probes none) : Course (.error .unexpectedState) probes
  /-- The code halfway between the two ends is set, and tells whether the VCO has locked. -/
  | settled {codes : List Nat} {code upper : Nat} {firstHigh : Option Nat} {again last : Probe}
    {search down up : List Probe} {v : TuningVoltage}
    (hreadable : Readable h (search ++ (down ++ (again :: up ++ [last]))))
    (hlength : search.length ≤ searchBudget)
    (hsearch : Scan h .normal codes search (some code))
    (hdown : Scan h .high (List.range code).reverse down firstHigh)
    (hup : UpperEnd h code upper again up)
    (hlast : last.code = (lowestAfter firstHigh + upper) / 2) (hv : last.Reads h v) :
    Course (if v = .normal then .ok () else .error .unexpectedState)
      (search ++ (down ++ (again :: up ++ [last])))

/-- Tuning, once the capacitor byte has been read. -/
def tuneFrom : Procedure Unit := do
  match ← search h cap searchBudget firstCode (firstCode / 2) with
  | none =>
    log .searchFailed
    fail .unexpectedState
  | some code =>
    let lower ← walkDown h cap code
    log (.lowerLimit lower)
    let upper ← upperEnd h cap code
    log (.upperLimit upper)
    let middle := (lower + upper) / 2
    log (.middle middle)
    match ← probe h cap middle with
    | .normal => return ()
    | voltage =>
      log (.middleFailed voltage)
      fail .unexpectedState

/-- Tuning reads the capacitor byte once and writes all its codes into that. -/
theorem tune_eq : tune h = readByte (Pll.vcoCap h).address >>= tuneFrom h :=
  rfl

/-- The most probes that tuning makes: all of the search, one of each code but that found, and two
more. -/
def mostProbes : Nat :=
  searchBudget + lastCode + 2

/-- Tuning takes the course that its probes give it. The four phases each add their probes to those
before, and each ends the course if one of its own reads no voltage. -/
theorem probing_tuneFrom :
    Probing t h cap (fun result probes => Course h result probes ∧ probes.length ≤ mostProbes)
      (tuneFrom h cap) := by
  have hmost : mostProbes = searchBudget + lastCode + 2 := rfl
  have hsteady : Steady firstCode (firstCode / 2) := ⟨by decide, by decide, by decide⟩
  refine (probing_search t h cap hsteady).bind (fun found search hsearch => ?_)
    fun fault search hsearch => ⟨.stopped hsearch.1, by omega⟩
  obtain ⟨hreadable, hlength, hscan⟩ := hsearch
  obtain ⟨codes, hcodes⟩ := hscan found rfl
  cases found with
  | none =>
    refine probing_log_bind (probing_fail ?_)
    rw [List.append_nil]
    exact ⟨.missed hreadable hcodes, by omega⟩
  | some code =>
    have hcode : code ≤ lastCode := by
      obtain ⟨before, reached, rfl, rfl, -, -⟩ := hcodes.exists_of_some
      exact (hreadable reached (by simp)).1
    refine (probing_walkDown t h cap hcode).bind (fun lower down hdown => ?_)
      fun fault down hdown => ⟨.stopped (hreadable.stopped hdown.1), ?_⟩
    · obtain ⟨hreadableDown, hlengthDown, hscanDown⟩ := hdown
      obtain ⟨firstHigh, hfirstHigh, rfl⟩ := hscanDown lower rfl
      refine probing_log_bind ?_
      refine (probing_upperEnd t h cap hcode).bind (fun upper probes hup => ?_)
        fun fault probes hup => ⟨.stopped ?_, ?_⟩
      · obtain ⟨hreadableUp, hlengthUp, hscanUp⟩ := hup
        obtain ⟨again, up, rfl, hupper⟩ := hscanUp upper rfl
        refine probing_log_bind (probing_log_bind ?_)
        have hmiddle : (lowestAfter firstHigh + upper) / 2 ≤ lastCode := by
          have hlow := lowestAfter_le h hfirstHigh
          have hhigh := hupper.le hcode
          omega
        have hbound (last : Probe) :
            (search ++ (down ++ (again :: up ++ [last]))).length ≤ mostProbes := by
          simp only [List.length_append, List.length_cons, List.length_nil] at hlengthUp ⊢
          omega
        refine probing_probe_bind (fun last hlast v hv => ?_) fun last hlast fault hfault => ?_
        · have hcode' : last.code ≤ lastCode := hlast ▸ hmiddle
          have hall := hreadable.append
            (hreadableDown.append (Readable.append hreadableUp (readable_singleton hcode' hv)))
          have hcourse := Course.settled hall hlength hcodes hfirstHigh hupper hlast hv
          cases v with
          | normal => exact probing_pure ⟨hcourse, hbound last⟩
          | low | high => exact probing_log_bind (probing_fail ⟨hcourse, hbound last⟩)
        · have hstopped := stopped_singleton h (hlast ▸ hmiddle) hfault
          exact ⟨.stopped (hreadable.stopped (hreadableDown.stopped
            (Readable.stopped hreadableUp hstopped))), hbound last⟩
      · exact hreadable.stopped (hreadableDown.stopped hup.1)
      · have := hup.2.1
        simp only [List.length_append]
        omega
    · have := hdown.2.1
      rw [List.length_append]
      omega

end Loops

/-! ## Where tuning ends -/

namespace Course

variable {h : Half} {result : Except Fault Unit} {probes : List Probe}

/-- No probe sets a code beyond the last one. -/
theorem code_le (hc : Course h result probes) : ∀ p ∈ probes, p.code ≤ lastCode := by
  cases hc with
  | stopped hstopped =>
    obtain ⟨before, last, rfl, hbefore, hlast, -⟩ := hstopped
    exact List.forall_mem_append.2
      ⟨fun p hp => (hbefore p hp).1, List.forall_mem_singleton.2 hlast⟩
  | missed hreadable hscan => exact fun p hp => (hreadable p hp).1
  | settled hreadable => exact fun p hp => (hreadable p hp).1

/-- If no access is refused, tuning ends well or in an unexpected state. -/
theorem ok_or_unexpectedState (hc : Course h result probes) :
    result = .ok () ∨ result = .error .unexpectedState := by
  cases hc with
  | stopped hstopped =>
    obtain ⟨before, last, -, -, -, hlast⟩ := hstopped
    exact .inr (congrArg Except.error (Probe.reading_eq_error.1 hlast).2)
  | missed hreadable hscan => exact .inr rfl
  | settled hreadable =>
    split
    · exact .inl rfl
    · exact .inr rfl

/-- A reading of no voltage is the last one, and the end of tuning. -/
theorem last_of_reserved (hc : Course h result probes) {before after : List Probe} {p : Probe}
    (hprobes : probes = before ++ p :: after) (hp : (Pll.vtune h).get p.shown = 3) :
    after = [] ∧ result = .error .unexpectedState := by
  have hreserved : p.reading h = .error .unexpectedState := Probe.reading_eq_error.2 ⟨hp, rfl⟩
  have hunreadable {part : List Probe} (hpart : Readable h part) : p ∉ part := fun hmem => by
    obtain ⟨-, v, hv⟩ := hpart p hmem
    cases hreserved.symm.trans hv
  have hmem : p ∈ probes := by simp [hprobes]
  cases hc with
  | stopped hstopped =>
    obtain ⟨readable, last, hlast, hbefore, -, hreading⟩ := hstopped
    refine ⟨?_, congrArg Except.error (Probe.reading_eq_error.1 hreading).2⟩
    rcases List.eq_nil_or_concat after with rfl | ⟨rest, q, rfl⟩
    · rfl
    · -- what comes before the last probe reads a voltage
      rw [hprobes, List.concat_eq_append, ← List.cons_append, ← List.append_assoc] at hlast
      have hsame := (List.append_inj' hlast rfl).1
      exact absurd (hsame ▸ by simp) (hunreadable hbefore)
  | missed hreadable hscan => exact absurd hmem (hunreadable hreadable)
  | settled hreadable => exact absurd hmem (hunreadable hreadable)

/-- Tuning ends well when the search has found a code inside the window, and the last probe reads
inside again. -/
theorem ok_iff (hc : Course h result probes) : result = .ok () ↔
    (∃ p ∈ probes.take searchBudget, p.Reads h .normal) ∧
      ∃ last ∈ probes.getLast?, last.Reads h .normal := by
  -- a course ends well only where it has settled on a code and read that it locks
  cases hc with
  | stopped hstopped =>
    obtain ⟨before, last, rfl, -, -, hlast⟩ := hstopped
    constructor
    · rintro ⟨⟩
    · rintro ⟨-, last', hlast', hnormal⟩
      rw [List.getLast?_concat] at hlast'
      obtain rfl := Option.some.inj hlast'
      cases hlast.symm.trans hnormal
  | missed hreadable hscan =>
    constructor
    · rintro ⟨⟩
    · rintro ⟨⟨p, hp, hnormal⟩, -⟩
      exact absurd hnormal (hscan.not_reads_of_none p (List.mem_of_mem_take hp))
  | @settled _ _ _ _ again last search down up v hreadable hlength hsearch hdown hup hlast hv =>
    have hgetLast : (search ++ (down ++ (again :: up ++ [last]))).getLast? = some last := by
      rw [← List.append_assoc, ← List.append_assoc, List.getLast?_concat]
    obtain ⟨before, reached, rfl, -, hreached, -⟩ := hsearch.exists_of_some
    have htake : reached ∈ (before ++ [reached] ++
        (down ++ (again :: up ++ [last]))).take searchBudget := by
      rw [List.take_append]
      exact List.mem_append_left _ (by rw [List.take_of_length_le hlength]; simp)
    constructor
    · intro hok
      split at hok
      · next hnormal => exact ⟨⟨reached, htake, hreached⟩, last, hgetLast, hnormal ▸ hv⟩
      · cases hok
    · rintro ⟨-, last', hlast', hnormal⟩
      obtain rfl := Option.some.inj (hgetLast.symm.trans hlast')
      exact if_pos (hv.unique hnormal)

/-- Tuning that ends well has settled halfway between the ends that its probes show. -/
theorem of_ok (hc : Course h result probes) (hok : result = .ok ()) :
    ∃ missed found down again up last firstHigh upper,
      probes = missed ++ found :: (down ++ again :: (up ++ [last])) ∧
      missed.length < searchBudget ∧ (∀ p ∈ missed, ¬ p.Reads h .normal) ∧
      found.Reads h .normal ∧
      Scan h .high (List.range found.code).reverse down firstHigh ∧
      UpperEnd h found.code upper again up ∧
      last.Reads h .normal ∧ last.code = (lowestAfter firstHigh + upper) / 2 := by
  cases hc with
  | stopped hstopped => cases hok
  | missed hreadable hscan => cases hok
  | @settled _ _ upper firstHigh again last search down up v hreadable hlength hsearch hdown hup
      hlast hv =>
    obtain ⟨missed, found, rfl, rfl, hfound, hmissed⟩ := hsearch.exists_of_some
    have hnormal : v = .normal := by
      by_contra hne
      rw [if_neg hne] at hok
      cases hok
    refine ⟨missed, found, down, again, up, last, firstHigh, upper, by simp, ?_, hmissed, hfound,
      hdown, hup, hnormal ▸ hv, hlast⟩
    rw [List.length_append] at hlength
    exact hlength

end Course

/-- Tuning follows any readings whatsoever, over any transport that refuses no access. It calculates
in bytes, and no sum or difference leaves them. After a read of the capacitor byte it does nothing
but probe, 71 times at most, and sets nothing in the byte but trim codes. It ends at the first
reading that stands for no voltage. It ends well exactly if one of the first six probes reads a
voltage inside the window and so does the last one, and the last code lies halfway between the ends
that are found from the first of these codes down and up. -/
theorem tune_follows_readings {σ : Type} (t : Transport σ) (s : σ) (h : Half)
    (haccepted : ∀ e ∈ ((tune h).run t s).events, e.isRefused = false) :
    let o := (tune h).run t s
    (∀ overflow, tuneInBytes overflow h = tune h) ∧
    ∃ (cap : Byte) (probes : List Probe),
      o.events.filter Event.isAccess =
        .read (Pll.vcoCap h).address (some cap) :: probes.flatMap (Probe.accesses h cap) ∧
      (∀ p ∈ probes, p.code ≤ 63) ∧ probes.length ≤ 71 ∧
      (∀ before p after, probes = before ++ p :: after → (Pll.vtune h).get p.shown = 3 →
        after = [] ∧ o.result = .error .unexpectedState) ∧
      (o.result = .ok () ∨ o.result = .error .unexpectedState) ∧
      (o.result = .ok () ↔ (∃ p ∈ probes.take 6, p.Reads h .normal) ∧
        ∃ last ∈ probes.getLast?, last.Reads h .normal) ∧
      (o.result = .ok () → ∃ missed found down again up last firstHigh upper,
        probes = missed ++ found :: (down ++ again :: (up ++ [last])) ∧
        missed.length < 6 ∧ (∀ p ∈ missed, ¬ p.Reads h .normal) ∧ found.Reads h .normal ∧
        Scan h .high (List.range found.code).reverse down firstHigh ∧
        UpperEnd h found.code upper again up ∧
        last.Reads h .normal ∧ last.code = (lowestAfter firstHigh + upper) / 2) := by
  intro o
  refine ⟨fun overflow => tuneInBytes_eq overflow h, ?_⟩
  rw [tune_eq] at haccepted
  -- the capacitor byte is read once, and every probe writes its code into that
  obtain ⟨cap, s', hrun⟩ := run_readByte_bind haccepted
  rw [hrun] at haccepted
  change o = _ at hrun
  obtain ⟨probes, hevents, hcourse, hlength⟩ := probing_tuneFrom t h cap s' fun e he =>
    haccepted e (List.mem_cons_of_mem _ he)
  refine ⟨cap, probes, ?_⟩
  rw [hrun, ← hevents]
  exact ⟨rfl, hcourse.code_le, hlength, fun _ _ _ => hcourse.last_of_reserved,
    hcourse.ok_or_unexpectedState, hcourse.ok_iff, hcourse.of_ok⟩

/-- Readings that fit no window: the search goes up, down and down again, and the two walks disagree
with it. -/
theorem tune_follows_readings_scripted :
    let c := { Chip.initial with
      window := none
      voltages := [0x80, 0x40, 0x00, 0x00, 0x80, 0x00, 0x00, 0x40, 0x00] }
    let o := (tune .tx).run Chip.transport c
    o.result = .ok () ∧ ∃ (cap : Byte) (probes : List Probe),
      o.events.filter Event.isAccess =
        .read (Pll.vcoCap .tx).address (some cap) :: probes.flatMap (Probe.accesses .tx cap) ∧
      ∃ p ∈ probes.take 6, p.Reads .tx .normal := by
  intro c o
  have hok : o.result = .ok () := by decide
  obtain ⟨-, cap, probes, hevents, -, -, -, -, hiff, -⟩ :=
    tune_follows_readings Chip.transport c .tx (by decide)
  exact ⟨hok, cap, probes, hevents, (hiff.1 hok).1⟩

end Transceiver.Synthesizer
