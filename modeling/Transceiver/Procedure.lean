import Transceiver.Journal

/-!
# Procedures

A procedure is a conversation with the transceiver: it reads and writes registers one at a time,
each access may be refused, and what it does next depends on the answers. It is data, a tree with
one branch per answer, so that a statement about every transport is an induction over the tree.

A refused access is not a fault by itself. `readByte` and `writeByte` turn it into `Fault.io`, and
`attempt` holds a fault back for those operations that must clean up first.
-/

namespace Transceiver

/-- A conversation with the transceiver that ends in an `α` or in a fault. -/
inductive Procedure (α : Type) where
  | done (result : Except Fault α)
  /-- Reads a register. The answer is `none` when the access is refused. -/
  | read (address : Address) (next : Option Byte → Procedure α)
  /-- Writes a register. The answer tells whether the access was accepted. -/
  | write (address : Address) (value : Byte) (next : Bool → Procedure α)
  | note (entry : Note) (next : Procedure α)
  /-- Waits for some microseconds. -/
  | pause (microseconds : Nat) (next : Procedure α)

namespace Procedure

variable {α β γ : Type}

/-- Runs `f` on the result of a procedure, unless that ends in a fault. -/
protected def bind : Procedure α → (α → Procedure β) → Procedure β
  | .done (.ok a), f => f a
  | .done (.error fault), _ => .done (.error fault)
  | .read address next, f => .read address fun answer => (next answer).bind f
  | .write address value next, f => .write address value fun accepted => (next accepted).bind f
  | .note entry next, f => .note entry (next.bind f)
  | .pause microseconds next, f => .pause microseconds (next.bind f)

instance : Monad Procedure where
  pure a := .done (.ok a)
  bind := Procedure.bind

/-- Ends the procedure in a fault. -/
def fail (fault : Fault) : Procedure α :=
  .done (.error fault)

/-- Goes on with a result that has been computed. -/
def ofExcept (result : Except Fault α) : Procedure α :=
  .done result

/-- Runs a procedure to its end and returns how it ended. -/
def attempt : Procedure α → Procedure (Except Fault α)
  | .done result => .done (.ok result)
  | .read address next => .read address fun answer => (next answer).attempt
  | .write address value next => .write address value fun accepted => (next accepted).attempt
  | .note entry next => .note entry next.attempt
  | .pause microseconds next => .pause microseconds next.attempt

/-- Enters a note into the journal. -/
def log (entry : Note) : Procedure Unit :=
  .note entry (pure ())

/-- Waits for some microseconds. -/
def wait (microseconds : Nat) : Procedure Unit :=
  .pause microseconds (pure ())

/-! ## Laws -/

@[simp] theorem pure_bind (a : α) (f : α → Procedure β) : Procedure.bind (pure a) f = f a :=
  rfl

/-- To return what has been returned adds nothing. -/
theorem bind_pure (p : Procedure α) : p.bind pure = p := by
  induction p with
  | done result => cases result <;> rfl
  | read address next ih => simp [Procedure.bind, ih]
  | write address value next ih => simp [Procedure.bind, ih]
  | note entry next ih => simp [Procedure.bind, ih]
  | pause microseconds next ih => simp [Procedure.bind, ih]

/-- Sequences can be regrouped. The journal entries, accesses and pauses of the first part stay in
front. -/
theorem bind_assoc (p : Procedure α) (f : α → Procedure β) (g : β → Procedure γ) :
    (p.bind f).bind g = p.bind fun a => (f a).bind g := by
  induction p with
  | done result => cases result <;> rfl
  | read address next ih => simp [Procedure.bind, ih]
  | write address value next ih => simp [Procedure.bind, ih]
  | note entry next ih => simp [Procedure.bind, ih]
  | pause microseconds next ih => simp [Procedure.bind, ih]

instance : LawfulMonad Procedure :=
  LawfulMonad.mk' Procedure bind_pure (fun _ _ => rfl) bind_assoc

/-! ## Register access -/

/-- Reads a register. -/
def readByte (address : Address) : Procedure Byte :=
  .read address fun
    | some value => pure value
    | none => fail .io

/-- Writes a register. -/
def writeByte (address : Address) (value : Byte) : Procedure Unit :=
  .write address value fun
    | true => pure ()
    | false => fail .io

/-- Reads a register and writes it back changed. -/
def modify (address : Address) (change : Byte → Byte) : Procedure Unit := do
  writeByte address (change (← readByte address))

/-- Reads a field. -/
def load {w : Nat} (field : BitField w) : Procedure (BitVec w) := do
  return field.get (← readByte field.address)

/-- Sets a field and keeps the rest of its register. -/
def assign {w : Nat} (field : BitField w) (value : BitVec w) : Procedure Unit :=
  modify field.address (field.set · value)

/-- Sets or clears a flag and keeps the rest of its register. -/
def put (flag : Flag) (on : Bool) : Procedure Unit :=
  modify flag.address (flag.put · on)

/-- Runs every procedure of a list, whatever becomes of the others, and ends in the first fault. -/
def forceAll : List (Procedure Unit) → Procedure Unit
  | [] => pure ()
  | p :: rest => do
    let first ← p.attempt
    let others ← (forceAll rest).attempt
    ofExcept (first *> others)

end Procedure

end Transceiver
