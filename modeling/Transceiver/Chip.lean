import Transceiver.Transport

/-!
# A simulated chip

Plain memory for most registers, and just enough behaviour for the closed loops: the comparators of
a tuning voltage follow the programmed capacitor code, and a calibration engine latches counts,
takes some polls to finish a run, and holds one value per submodule.

Every step is a pure function of the chip's state.
-/

namespace Transceiver

/-! ## The register file -/

/-- The contents of all registers. -/
structure RegisterFile where
  bytes : Vector Byte 128
deriving DecidableEq

namespace RegisterFile

/-- The register file with every register the same. -/
def filled (value : Byte) : RegisterFile :=
  ⟨Vector.replicate _ value⟩

/-- The contents of a register. -/
def get (r : RegisterFile) (address : Address) : Byte :=
  r.bytes[address.toNat]

/-- The register file with new contents of a register. -/
def set (r : RegisterFile) (address : Address) (value : Byte) : RegisterFile :=
  ⟨r.bytes.set address.toNat value⟩

/-- A register holds what was last written to it, and a write changes no other register. -/
theorem get_set (r : RegisterFile) (a b : Address) (value : Byte) :
    (r.set a value).get b = if a = b then value else r.get b := by
  simp only [get, set, Vector.getElem_set, BitVec.toNat_inj]

/-- A register holds what it is set to. -/
@[simp] theorem get_set_self (r : RegisterFile) (a : Address) (value : Byte) :
    (r.set a value).get a = value := by
  simp [get_set]

/-- Setting a register leaves the others alone. -/
theorem get_set_of_ne (r : RegisterFile) {a b : Address} (h : a ≠ b) (value : Byte) :
    (r.set a value).get b = r.get b := by
  simp [get_set, h]

/-- Register files with the same contents everywhere are the same. -/
theorem ext_get {r s : RegisterFile} (h : ∀ a, r.get a = s.get a) : r = s := by
  rcases r with ⟨r⟩
  rcases s with ⟨s⟩
  congr 1
  apply Vector.ext
  intro i hi
  have := h (BitVec.ofNat 7 i)
  simpa only [get, BitVec.toNat_ofNat, Nat.mod_eq_of_lt hi] using this

end RegisterFile

/-! ## Calibration engines -/

namespace Calibration

/-- A calibration under way. -/
structure Pending where
  submodule : BitVec 3
  result : BitVec 6
  /-- The polls that still answer busy; `none` for a run that never finishes. -/
  busyPolls : Option Nat
deriving Repr, DecidableEq

/-- The state of one calibration block. -/
structure Engine where
  values : Vector (BitVec 6) 8
  run : Option Pending
deriving DecidableEq

/-- The result of a calibration when none is scripted, and every value at power on. -/
def defaultValue : BitVec 6 := 17

namespace Engine

/-- The engine at power on. -/
def initial : Engine := ⟨Vector.replicate _ defaultValue, none⟩

/-- The value of a submodule. -/
def value (e : Engine) (submodule : BitVec 3) : BitVec 6 :=
  e.values[submodule.toNat]

/-- The engine with a value put into a submodule. -/
def store (e : Engine) (submodule : BitVec 3) (value : BitVec 6) : Engine :=
  { e with values := e.values.set submodule.toNat value }

/-- An engine keeps the value of each submodule apart. -/
theorem value_store (e : Engine) (a b : BitVec 3) (v : BitVec 6) :
    (e.store a v).value b = if a = b then v else e.value b := by
  simp only [value, store, Vector.getElem_set, BitVec.toNat_inj]

/-- Whether the engine is busy at a poll, and the engine after it. A run that has no busy polls
left ends, and its result becomes the value of its submodule. -/
def poll (e : Engine) : Bool × Engine :=
  match e.run with
  | none => (false, e)
  | some ⟨_, _, none⟩ => (true, e)
  | some ⟨submodule, result, some 0⟩ => (false, { e.store submodule result with run := none })
  | some ⟨submodule, result, some (polls + 1)⟩ =>
    (true, { e with run := some ⟨submodule, result, some polls⟩ })

end Engine

/-- The engines of all blocks. -/
structure Engines where
  engines : Vector Engine 4
deriving DecidableEq

/-- The place of a block among the engines. -/
def Block.index : Block → Fin 4
  | .lpfTuning => 0
  | .txLpf => 1
  | .rxLpf => 2
  | .rxvga2 => 3

/-- Every block has an engine of its own. -/
theorem Block.index_inj {a b : Block} : a.index = b.index ↔ a = b := by
  cases a <;> cases b <;> decide

namespace Engines

/-- Every engine at power on. -/
def initial : Engines := ⟨Vector.replicate _ .initial⟩

/-- The engine of a block. -/
def get (e : Engines) (b : Block) : Engine :=
  e.engines[b.index]

/-- The engines with that of one block replaced. -/
def set (e : Engines) (b : Block) (engine : Engine) : Engines :=
  ⟨e.engines.set b.index engine⟩

theorem get_set (e : Engines) (a b : Block) (engine : Engine) :
    (e.set a engine).get b = if a = b then engine else e.get b := by
  simp only [get, set, Fin.getElem_fin, Vector.getElem_set, Fin.val_inj, Block.index_inj]

end Engines

end Calibration

/-! ## The chip -/

/-- The state of the simulated chip. -/
structure Chip where
  registers : RegisterFile
  engines : Calibration.Engines
  /-- The address whose reads are refused. -/
  failRead : Option Address
  /-- The address whose writes are refused. -/
  failWrite : Option Address
  /-- The least and the greatest capacitor code with a tuning voltage inside the window; without
  a window the comparators are plain memory. -/
  window : Option (Byte × Byte)
  /-- What the comparators show at their next reads, before they follow the window. -/
  voltages : List Byte
  /-- How many polls the next calibrations stay busy; `none` for ever. -/
  busyPolls : Option Nat
  /-- The results of the next calibrations. -/
  results : List Byte
  /-- How many calibrations have been started. -/
  starts : Nat

/-- What stands behind an address besides plain memory. -/
inductive Site where
  | memory
  /-- The comparators of a half's tuning voltage. -/
  | voltage (half : Half)
  /-- The value of a block's addressed submodule. -/
  | value (block : Calibration.Block)
  /-- The status of a block. -/
  | status (block : Calibration.Block)
  /-- The control of a block. -/
  | control (block : Calibration.Block)
deriving Repr, DecidableEq

/-- The site of an address. -/
def Site.at (address : Address) : Site :=
  match Half.all.find? fun h => (Register.Pll.vtune h).address == address with
  | some half => .voltage half
  | none =>
    match Calibration.Block.all.find? fun b => b.base == address &&& 0x70 with
    | none => .memory
    | some block =>
      if address = block.base then .value block
      else if address = block.base + 1 then .status block
      else if address = block.base + 3 then .control block
      else .memory

namespace Site

@[simp] theorem at_vtune (h : Half) : Site.at (Register.Pll.vtune h).address = .voltage h := by
  cases h <;> rfl

@[simp] theorem at_value (b : Calibration.Block) :
    Site.at (Register.Dc.value b).address = .value b := by
  cases b <;> rfl

@[simp] theorem at_busy (b : Calibration.Block) :
    Site.at (Register.Dc.busy b).address = .status b := by
  cases b <;> rfl

@[simp] theorem at_count (b : Calibration.Block) :
    Site.at (Register.Dc.count b).address = .memory := by
  cases b <;> rfl

@[simp] theorem at_submodule (b : Calibration.Block) :
    Site.at (Register.Dc.submodule b).address = .control b := by
  cases b <;> rfl

end Site

namespace Chip

/-- The registers at power on: LNA 1 at full gain, both PLLs in a band with the low band buffer. -/
def initialRegisters : RegisterFile :=
  (((RegisterFile.filled 0).set 0x75 0xd0).set 0x15 0x95).set 0x25 0x95

/-- The chip at power on. -/
def initial : Chip where
  registers := initialRegisters
  engines := .initial
  failRead := none
  failWrite := none
  window := some (16, 48)
  voltages := []
  busyPolls := some 0
  results := []
  starts := 0

/-- What the comparators show at a capacitor code: above the window's voltages while the code is
below its codes, and the other way round. -/
def voltageAt (window : Byte × Byte) (code : BitVec 6) : Byte :=
  if code.toNat < window.1.toNat then 0x80
  else if window.2.toNat < code.toNat then 0x40
  else 0x00

/-- Reads the comparators of a half. -/
def readVoltage (c : Chip) (h : Half) : Byte × Chip :=
  match c.voltages with
  | shown :: rest => (shown, { c with voltages := rest })
  | [] =>
    match c.window with
    | some window =>
      let cap := Register.Pll.vcoCap h
      (voltageAt window (cap.get (c.registers.get cap.address)), c)
    | none => (c.registers.get (Register.Pll.vtune h).address, c)

/-- The value that a block shows: that of the submodule addressed by its control register. -/
def shownValue (c : Chip) (b : Calibration.Block) : BitVec 6 :=
  let submodule := Register.Dc.submodule b
  (c.engines.get b).value (submodule.get (c.registers.get submodule.address))

/-- Polls the status of a block. -/
def poll (c : Chip) (b : Calibration.Block) : Byte × Chip :=
  let (busy, engine) := (c.engines.get b).poll
  ((Register.Dc.busy b).put 0 busy, { c with engines := c.engines.set b engine })

/-- Latches the count of a block into a submodule. -/
def latch (c : Chip) (b : Calibration.Block) (submodule : BitVec 3) : Chip :=
  let count := Register.Dc.count b
  let value := count.get (c.registers.get count.address)
  { c with engines := c.engines.set b ((c.engines.get b).store submodule value) }

/-- Starts a calibration of a submodule in place of any that is under way in the block. -/
def start (c : Chip) (b : Calibration.Block) (submodule : BitVec 3) : Chip :=
  let result := match c.results with
    | [] => Calibration.defaultValue
    | result :: _ => result.setWidth 6
  { c with
    engines := c.engines.set b
      { c.engines.get b with run := some ⟨submodule, result, c.busyPolls⟩ }
    results := c.results.tail
    starts := c.starts + 1 }

/-- Acts on the strobes of a byte written to the control register of a block. -/
def strobe (c : Chip) (b : Calibration.Block) (control : Byte) : Chip :=
  let submodule := (Register.Dc.submodule b).get control
  let c := if (Register.Dc.load b).isSet control then c.latch b submodule else c
  if (Register.Dc.start b).isSet control then c.start b submodule else c

/-- Reads a register. -/
def read (address : Address) (c : Chip) : Option Byte × Chip :=
  if c.failRead = some address then (none, c)
  else
    match Site.at address with
    | .voltage half =>
      let (shown, c) := c.readVoltage half
      (some shown, c)
    | .value block => (some ((c.shownValue block).setWidth 8), c)
    | .status block =>
      let (status, c) := c.poll block
      (some status, c)
    | .control _ | .memory => (some (c.registers.get address), c)

/-- Writes a register. -/
def write (address : Address) (value : Byte) (c : Chip) : Bool × Chip :=
  if c.failWrite = some address then (false, c)
  else
    let c := { c with registers := c.registers.set address value }
    match Site.at address with
    | .control block => (true, c.strobe block value)
    | .memory | .voltage _ | .value _ | .status _ => (true, c)

/-- The chip without a bus in between. -/
def transport : Transport Chip where
  read := read
  write := write

end Chip

end Transceiver
