import Transceiver.Procedure

/-!
# Transports

A transport carries accesses to a chip and may refuse them. `Procedure.run` holds a procedure's
conversation over a transport and writes down its events in order. Two kinds of trouble are made
from a transport: one that refuses the accesses with given numbers, and one that answers some reads
from a script instead of asking the chip.
-/

namespace Transceiver

/-- A way to reach registers, with a state of its own. -/
structure Transport (σ : Type) where
  /-- The answer to a read is `none` when the access is refused. -/
  read : Address → σ → Option Byte × σ
  /-- The answer to a write is `false` when the access is refused. -/
  write : Address → Byte → σ → Bool × σ

/-- One event of a conversation. -/
inductive Event where
  | read (address : Address) (answer : Option Byte)
  | write (address : Address) (value : Byte) (accepted : Bool)
  | note (entry : Note)
  | pause (microseconds : Nat)
deriving Repr, DecidableEq

namespace Event

/-- Whether the event is an access to a register. -/
def isAccess : Event → Bool
  | .read _ _ | .write _ _ _ => true
  | .note _ | .pause _ => false

/-- Whether the event is a refused access. -/
def isRefused : Event → Bool
  | .read _ none | .write _ _ false => true
  | .read _ (some _) | .write _ _ true | .note _ | .pause _ => false

/-- The log line of an event. A write is announced, accepted or not; a read is silent. -/
def logLine? : Event → Option (Level × String)
  | .write address value _ =>
    some (.trace, "LMS[" ++ hexText address.toNat ++ "] <- " ++ hexText value.toNat)
  | .note entry => some (entry.level, entry.text)
  | .read _ _ | .pause _ => none

end Event

/-- What comes out of a conversation. -/
structure Outcome (σ α : Type) where
  result : Except Fault α
  state : σ
  events : List Event

namespace Procedure

variable {σ α β : Type}

/-- Holds the conversation of a procedure over a transport. -/
def run (t : Transport σ) : Procedure α → σ → Outcome σ α
  | .done result, s => ⟨result, s, []⟩
  | .read address next, s =>
    let (answer, s) := t.read address s
    let rest := (next answer).run t s
    { rest with events := .read address answer :: rest.events }
  | .write address value next, s =>
    let (accepted, s) := t.write address value s
    let rest := (next accepted).run t s
    { rest with events := .write address value accepted :: rest.events }
  | .note entry next, s =>
    let rest := next.run t s
    { rest with events := .note entry :: rest.events }
  | .pause microseconds next, s =>
    let rest := next.run t s
    { rest with events := .pause microseconds :: rest.events }

@[simp] theorem run_pure (t : Transport σ) (a : α) (s : σ) :
    (pure a : Procedure α).run t s = ⟨.ok a, s, []⟩ :=
  rfl

@[simp] theorem run_fail (t : Transport σ) (fault : Fault) (s : σ) :
    (fail fault : Procedure α).run t s = ⟨.error fault, s, []⟩ :=
  rfl

@[simp] theorem run_ofExcept (t : Transport σ) (result : Except Fault α) (s : σ) :
    (ofExcept result).run t s = ⟨result, s, []⟩ :=
  rfl

/-- A read ends in the answer, or in a fault when it is refused. -/
theorem run_readByte (t : Transport σ) (address : Address) (s : σ) :
    (readByte address).run t s =
      match t.read address s with
      | (some value, s) => ⟨.ok value, s, [.read address (some value)]⟩
      | (none, s) => ⟨.error .io, s, [.read address none]⟩ := by
  rcases h : t.read address s with ⟨_ | _, _⟩ <;> simp [readByte, run, h]

/-- A write ends well, or in a fault when it is refused. -/
theorem run_writeByte (t : Transport σ) (address : Address) (value : Byte) (s : σ) :
    (writeByte address value).run t s =
      match t.write address value s with
      | (true, s) => ⟨.ok (), s, [.write address value true]⟩
      | (false, s) => ⟨.error .io, s, [.write address value false]⟩ := by
  rcases h : t.write address value s with ⟨_ | _, _⟩ <;> simp [writeByte, run, h]

@[simp] theorem run_log (t : Transport σ) (entry : Note) (s : σ) :
    (log entry).run t s = ⟨.ok (), s, [.note entry]⟩ :=
  rfl

@[simp] theorem run_wait (t : Transport σ) (microseconds : Nat) (s : σ) :
    (wait microseconds).run t s = ⟨.ok (), s, [.pause microseconds]⟩ :=
  rfl

/-- A bound procedure goes on from where the first one ended, or stops with its fault. -/
theorem run_bind (t : Transport σ) (p : Procedure α) (f : α → Procedure β) (s : σ) :
    (p >>= f).run t s =
      match p.run t s with
      | ⟨.ok a, s, events⟩ =>
        let rest := (f a).run t s
        { rest with events := events ++ rest.events }
      | ⟨.error fault, s, events⟩ => ⟨.error fault, s, events⟩ := by
  change (p.bind f).run t s = _
  induction p generalizing s with
  | done result => cases result <;> rfl
  | read address next ih =>
    simp only [Procedure.bind, run, ih]
    rcases (next (t.read address s).1).run t (t.read address s).2 with ⟨_ | _, _, _⟩ <;> rfl
  | write address value next ih =>
    simp only [Procedure.bind, run, ih]
    rcases (next (t.write address value s).1).run t (t.write address value s).2 with
      ⟨_ | _, _, _⟩ <;> rfl
  | note entry next ih =>
    simp only [Procedure.bind, run, ih]
    rcases next.run t s with ⟨_ | _, _, _⟩ <;> rfl
  | pause microseconds next ih =>
    simp only [Procedure.bind, run, ih]
    rcases next.run t s with ⟨_ | _, _, _⟩ <;> rfl

/-- An attempt does all that the procedure does, and never fails. -/
theorem run_attempt (t : Transport σ) (p : Procedure α) (s : σ) :
    p.attempt.run t s = ⟨.ok (p.run t s).result, (p.run t s).state, (p.run t s).events⟩ := by
  induction p generalizing s with
  | done result => rfl
  | read address next ih => simp [attempt, run, ih]
  | write address value next ih => simp [attempt, run, ih]
  | note entry next ih => simp [attempt, run, ih]
  | pause microseconds next ih => simp [attempt, run, ih]

end Procedure

namespace Transport

variable {σ : Type}

/-- Counts the accesses from zero and refuses those whose number `refused` holds of. The transport
beneath does not see a refused access. -/
def refusing (refused : Nat → Bool) (t : Transport σ) : Transport (Nat × σ) where
  read address := fun (n, s) =>
    if refused n then (none, n + 1, s)
    else
      let (answer, s) := t.read address s
      (answer, n + 1, s)
  write address value := fun (n, s) =>
    if refused n then (false, n + 1, s)
    else
      let (accepted, s) := t.write address value s
      (accepted, n + 1, s)

/-- The answers to give to the reads of some addresses, in order. -/
abbrev Script := List (Address × Byte)

/-- The next scripted answer for an address, and the script without it. -/
def Script.next? (address : Address) : Script → Option (Byte × Script)
  | [] => none
  | (a, value) :: rest =>
    if a = address then some (value, rest)
    else (Script.next? address rest).map fun (v, rest) => (v, (a, value) :: rest)

/-- Answers a read from the script while it has an answer for the address, without asking the
transport beneath. -/
def scripted (t : Transport σ) : Transport (Script × σ) where
  read address := fun (script, s) =>
    match script.next? address with
    | some (value, script) => (some value, script, s)
    | none =>
      let (answer, s) := t.read address s
      (answer, script, s)
  write address value := fun (script, s) =>
    let (accepted, s) := t.write address value s
    (accepted, script, s)

end Transport

end Transceiver
