import Transceiver.Proofs.TuningWindow

/-!
# Tuning in bytes

Trim codes are bytes on the way to their register, and tuning steps through them by addition and
subtraction. Here tuning calculates in bytes throughout, and ends in a fault as soon as a sum or a
difference is not a byte. It turns out to be the same procedure: no step ever leaves the codes.
-/

namespace Transceiver.Synthesizer

open Procedure Register

/-! ## Codes that can be returned -/

/-- The steps left to a search keep it within the codes: it can go down by twice its step at most,
and up by less than that. -/
structure Steady (code step : Nat) : Prop where
  below : 2 * step ≤ code
  above : code + 2 * step ≤ lastCode + 1
  within : code ≤ lastCode

/-- A step up leaves the search steady, with half the step. -/
theorem Steady.add {code step : Nat} (h : Steady code step) : Steady (code + step) (step / 2) := by
  obtain ⟨hbelow, habove, hwithin⟩ := h
  constructor <;> omega

/-- A step down does too. -/
theorem Steady.sub {code step : Nat} (h : Steady code step) : Steady (code - step) (step / 2) := by
  obtain ⟨hbelow, habove, hwithin⟩ := h
  constructor <;> omega

section Bounds

variable {h : Half} {cap : Byte} {code : Nat}

/-- A search that finds a code finds one that exists. -/
theorem le_of_canReturn_search {budget step found : Nat} (hsteady : Steady code step)
    (hfound : (search h cap budget code step).CanReturn (some found)) : found ≤ lastCode := by
  induction budget generalizing code step with
  | zero => cases canReturn_pure.1 hfound
  | succ budget ih =>
    obtain ⟨voltage, -, hrest⟩ := canReturn_bind.1 hfound
    cases voltage with
    | normal =>
      obtain ⟨-, -, hreturn⟩ := canReturn_bind.1 hrest
      obtain rfl := Option.some.inj (canReturn_pure.1 hreturn)
      exact hsteady.within
    | high =>
      obtain ⟨-, -, hreturn⟩ := canReturn_bind.1 hrest
      exact ih hsteady.add hreturn
    | low =>
      obtain ⟨-, -, hreturn⟩ := canReturn_bind.1 hrest
      exact ih hsteady.sub hreturn

/-- The walk down ends no higher than it begins. -/
theorem le_of_canReturn_walkDown {lower : Nat} (hlower : (walkDown h cap code).CanReturn lower) :
    lower ≤ code := by
  induction code with
  | zero =>
    obtain rfl := canReturn_pure.1 hlower
    exact Nat.le_refl 0
  | succ code ih =>
    obtain ⟨voltage, -, hrest⟩ := canReturn_bind.1 hlower
    split at hrest
    · obtain rfl := canReturn_pure.1 hrest
      exact Nat.le_refl _
    · exact Nat.le_succ_of_le (ih hrest)

/-- The walk up ends within its room. -/
theorem le_of_canReturn_walkUp {room upper : Nat}
    (hupper : (walkUp h cap room code).CanReturn upper) : upper ≤ code + room := by
  induction room generalizing code with
  | zero =>
    obtain rfl := canReturn_pure.1 hupper
    exact Nat.le_refl _
  | succ room ih =>
    obtain ⟨voltage, -, hrest⟩ := canReturn_bind.1 hupper
    split at hrest
    · obtain rfl := canReturn_pure.1 hrest
      omega
    · have := ih hrest
      omega

/-- The upper end is a code that exists. -/
theorem le_of_canReturn_upperEnd {upper : Nat} (hcode : code ≤ lastCode)
    (hupper : (upperEnd h cap code).CanReturn upper) : upper ≤ lastCode := by
  obtain ⟨voltage, -, hrest⟩ := canReturn_bind.1 hupper
  split at hrest
  · obtain rfl := canReturn_pure.1 hrest
    exact hcode
  · have := le_of_canReturn_walkUp hrest
    omega

end Bounds

/-! ## Checked arithmetic -/

section Bytes

variable (overflow : Fault)

/-- Adds two bytes, or ends in `overflow` if the sum is not a byte. -/
def addBytes (a b : Byte) : Procedure Byte :=
  if a.toNat + b.toNat < 256 then pure (a + b) else fail overflow

/-- Subtracts a byte from another, or ends in `overflow` if the difference is not a byte. -/
def subBytes (a b : Byte) : Procedure Byte :=
  if b.toNat ≤ a.toNat then pure (a - b) else fail overflow

/-- The search, calculating in bytes. -/
def searchInBytes (h : Half) (cap : Byte) :
    (budget : Nat) → (code step : Byte) → Procedure (Option Byte)
  | 0, _, _ => return none
  | budget + 1, code, step => do
    match ← probe h cap code.toNat with
    | .normal =>
      log (.foundNormal code.toNat)
      return some code
    | .high =>
      let next ← addBytes overflow code step
      log (.tooHigh code.toNat next.toNat)
      searchInBytes h cap budget next (step >>> 1)
    | .low =>
      let next ← subBytes overflow code step
      log (.tooLow code.toNat next.toNat)
      searchInBytes h cap budget next (step >>> 1)

/-- The walk down, calculating in bytes. It counts as an overflow too if the walk does not end
within some rounds. -/
def walkDownInBytes (h : Half) (cap : Byte) : (rounds : Nat) → (code : Byte) → Procedure Byte
  | 0, _ => fail overflow
  | rounds + 1, code =>
    if code = 0 then return code
    else do
      let below ← subBytes overflow code 1
      if (← probe h cap below.toNat) = .high then
        return code
      else
        walkDownInBytes h cap rounds below

/-- The walk up, calculating in bytes. It counts as an overflow too if the walk does not end within
some rounds. -/
def walkUpInBytes (h : Half) (cap : Byte) : (rounds : Nat) → (code : Byte) → Procedure Byte
  | 0, _ => fail overflow
  | rounds + 1, code =>
    if code.toNat < lastCode then do
      let above ← addBytes overflow code 1
      if (← probe h cap above.toNat) = .low then
        return code
      else
        walkUpInBytes h cap rounds above
    else return code

/-- The highest code around `code`, calculating in bytes. -/
def upperEndInBytes (h : Half) (cap code : Byte) : Procedure Byte := do
  if (← probe h cap code.toNat) = .low then
    return code
  else
    walkUpInBytes overflow h cap 64 code

/-- Tuning, calculating in bytes. -/
def tuneInBytes (h : Half) : Procedure Unit := do
  let cap ← readByte (Pll.vcoCap h).address
  match ← searchInBytes overflow h cap searchBudget 32 16 with
  | none =>
    log .searchFailed
    fail .unexpectedState
  | some code =>
    let lower ← walkDownInBytes overflow h cap 64 code
    log (.lowerLimit lower.toNat)
    let upper ← upperEndInBytes overflow h cap code
    log (.upperLimit upper.toNat)
    let sum ← addBytes overflow lower upper
    let middle := sum >>> 1
    log (.middle middle.toNat)
    match ← probe h cap middle.toNat with
    | .normal => return ()
    | voltage =>
      log (.middleFailed voltage)
      fail .unexpectedState

/-- A sum that is a byte does not overflow. -/
theorem addBytes_of_lt {a b : Byte} (hlt : a.toNat + b.toNat < 256) :
    addBytes overflow a b = pure (a + b) ∧ (a + b).toNat = a.toNat + b.toNat := by
  refine ⟨if_pos hlt, ?_⟩
  rw [BitVec.toNat_add]
  omega

/-- The difference of a smaller byte does not overflow. -/
theorem subBytes_of_le {a b : Byte} (hle : b.toNat ≤ a.toNat) :
    subBytes overflow a b = pure (a - b) ∧ (a - b).toNat = a.toNat - b.toNat :=
  ⟨if_pos hle, BitVec.toNat_sub_of_le hle⟩

theorem toNat_half (a : Byte) : (a >>> 1).toNat = a.toNat / 2 := by
  rw [BitVec.toNat_ushiftRight, Nat.shiftRight_eq_div_pow, Nat.pow_one]

/-! ## The same procedure -/

variable (h : Half) (cap : Byte) {code : Byte}

/-- A steady search is the same in bytes. -/
theorem searchInBytes_eq {step : Byte} (budget : Nat) (hsteady : Steady code.toNat step.toNat) :
    Option.map BitVec.toNat <$> searchInBytes overflow h cap budget code step =
      search h cap budget code.toNat step.toNat := by
  have hlast : lastCode = 63 := rfl
  induction budget generalizing code step with
  | zero => rfl
  | succ budget ih =>
    obtain ⟨hbelow, habove, -⟩ := id hsteady
    rw [searchInBytes, search, map_bind]
    congr 1
    funext voltage
    cases voltage with
    | normal => rfl
    | high =>
      obtain ⟨hadd, hsum⟩ := addBytes_of_lt overflow (show code.toNat + step.toNat < 256 by omega)
      have hnext : Steady (code + step).toNat (step >>> 1).toNat := by
        rw [hsum, toNat_half]
        exact hsteady.add
      dsimp only
      rw [hadd, LawfulMonad.pure_bind, map_bind, ih hnext, hsum, toNat_half]
    | low =>
      obtain ⟨hsub, hdifference⟩ := subBytes_of_le overflow (show step.toNat ≤ code.toNat by omega)
      have hnext : Steady (code - step).toNat (step >>> 1).toNat := by
        rw [hdifference, toNat_half]
        exact hsteady.sub
      dsimp only
      rw [hsub, LawfulMonad.pure_bind, map_bind, ih hnext, hdifference, toNat_half]

/-- The walk down is the same in bytes, if there are rounds for all codes below. -/
theorem walkDownInBytes_eq {rounds : Nat} (hrounds : code.toNat < rounds) :
    BitVec.toNat <$> walkDownInBytes overflow h cap rounds code = walkDown h cap code.toNat := by
  -- one round for each code and one to spare
  induction rounds generalizing code with
  | zero => exact absurd hrounds (Nat.not_lt_zero _)
  | succ rounds ih =>
    rw [walkDownInBytes]
    split
    · next hzero =>
      subst hzero
      rfl
    · next hzero =>
      have hpos : 1 ≤ code.toNat := by
        have hne : code.toNat ≠ 0 := fun heq => hzero (BitVec.toNat_inj.1 heq)
        omega
      obtain ⟨hsub, hdifference⟩ :=
        subBytes_of_le overflow (show (1 : Byte).toNat ≤ code.toNat from hpos)
      obtain ⟨below, hbelow⟩ : ∃ below, code.toNat = below + 1 := ⟨code.toNat - 1, by omega⟩
      have hcode : (code - 1).toNat = below := by
        rw [hdifference, hbelow]
        rfl
      rw [hsub, LawfulMonad.pure_bind, map_bind, hcode, hbelow, walkDown]
      congr 1
      funext voltage
      split
      · rw [map_pure, hbelow]
      · rw [ih (by omega), hcode]

/-- The walk up is the same in bytes, if there are rounds for all codes above. -/
theorem walkUpInBytes_eq {rounds : Nat} (hcode : code.toNat ≤ lastCode)
    (hrounds : lastCode - code.toNat < rounds) :
    BitVec.toNat <$> walkUpInBytes overflow h cap rounds code =
      walkUp h cap (lastCode - code.toNat) code.toNat := by
  have hlast : lastCode = 63 := rfl
  induction rounds generalizing code with
  | zero => exact absurd hrounds (Nat.not_lt_zero _)
  | succ rounds ih =>
    rw [walkUpInBytes]
    split
    · next hlt =>
      obtain ⟨hadd, hsum⟩ := addBytes_of_lt overflow (show code.toNat + (1 : Byte).toNat < 256 by
        change code.toNat + 1 < 256
        omega)
      change (code + 1).toNat = code.toNat + 1 at hsum
      obtain ⟨room, hroom⟩ : ∃ room, lastCode - code.toNat = room + 1 :=
        ⟨lastCode - code.toNat - 1, by omega⟩
      have hrest : lastCode - (code + 1).toNat = room := by omega
      rw [hadd, LawfulMonad.pure_bind, map_bind, hroom, walkUp, hsum]
      congr 1
      funext voltage
      split
      · rw [map_pure]
      · rw [ih (by omega) (by omega), hrest, hsum]
    · next hlt =>
      have hroom : lastCode - code.toNat = 0 := by omega
      rw [map_pure, hroom]
      rfl

/-- The upper end is the same in bytes: no code is out of reach of the rounds. -/
theorem upperEndInBytes_eq (hcode : code.toNat ≤ lastCode) :
    BitVec.toNat <$> upperEndInBytes overflow h cap code = upperEnd h cap code.toNat := by
  have hlast : lastCode = 63 := rfl
  rw [upperEndInBytes, upperEnd, map_bind]
  congr 1
  funext voltage
  split
  · rw [map_pure]
  · exact walkUpInBytes_eq overflow h cap hcode (by omega)

/-- Tuning never leaves the bytes: calculating in them, it does the same. -/
theorem tuneInBytes_eq : tuneInBytes overflow h = tune h := by
  have hlast : lastCode = 63 := rfl
  have hsteady : Steady (32 : Byte).toNat (16 : Byte).toNat := ⟨by decide, by decide, by decide⟩
  rw [tuneInBytes, tune]
  congr 1
  funext cap
  have hsearch : search h cap searchBudget firstCode (firstCode / 2) = _ :=
    (searchInBytes_eq overflow h cap searchBudget hsteady).symm
  rw [hsearch, bind_map_left]
  -- what each part can return bounds the bytes that the next part calculates with
  refine bind_congr_canReturn fun found hfound => ?_
  cases found with
  | none => rfl
  | some code =>
    have hcode : code.toNat ≤ lastCode := by
      have hreturn := hfound.map (Option.map BitVec.toNat)
      rw [← hsearch] at hreturn
      exact le_of_canReturn_search hsteady hreturn
    dsimp only [Option.map_some]
    have hdown := walkDownInBytes_eq overflow h cap (show code.toNat < 64 by omega)
    rw [← hdown, bind_map_left]
    refine bind_congr_canReturn fun lower hlower => ?_
    have hlower : lower.toNat ≤ code.toNat := by
      have hreturn := hlower.map BitVec.toNat
      rw [hdown] at hreturn
      exact le_of_canReturn_walkDown hreturn
    congr 1
    funext _
    have hup := upperEndInBytes_eq overflow h cap hcode
    rw [← hup, bind_map_left]
    refine bind_congr_canReturn fun upper hupper => ?_
    have hupper : upper.toNat ≤ lastCode := by
      have hreturn := hupper.map BitVec.toNat
      rw [hup] at hreturn
      exact le_of_canReturn_upperEnd hcode hreturn
    congr 1
    funext _
    obtain ⟨hadd, hsum⟩ := addBytes_of_lt overflow (show lower.toNat + upper.toNat < 256 by omega)
    have hmiddle : ((lower + upper) >>> 1).toNat = (lower.toNat + upper.toNat) / 2 := by
      rw [toNat_half, hsum]
    rw [hadd, LawfulMonad.pure_bind]
    exact hmiddle ▸ rfl

end Bytes

end Transceiver.Synthesizer
