import SpriteVM.Memory

namespace SpriteVM

inductive AccessKind
  | read
  | write
  deriving DecidableEq, Repr

structure Access where
  kind : AccessKind
  address : Int
  data : Int
  deriving DecidableEq, Repr

/-- The addresses from `first` to `last`, served by the device with this number. -/
structure AddressRange where
  first : Int
  last : Int
  device : Nat
  deriving DecidableEq, Repr

/-- The devices, whether in use or not, the ranges in the order they were attached, and the record
of accesses, the oldest first. -/
structure Bus where
  devices : Array Device
  ranges : List AddressRange
  log : List Access

namespace Bus

def empty : Bus := ⟨#[], [], []⟩

instance : Inhabited Bus := ⟨empty⟩

/-- The bus with one more device, not yet attached; its number is the old count of devices. -/
def addDevice (b : Bus) (d : Device) : Bus := { b with devices := b.devices.push d }

/-- Lets a device serve the addresses from `first` to `last`. Ranges may overlap; memory has to fill
its range. -/
def attach (first last : Int) (device : Nat) : EStateM Fault Bus Unit := fun b =>
  if ¬ (0 ≤ first ∧ first ≤ last) then .error .addressRange b
  else match b.devices[device]? with
    | none => .error .notDevice b
    | some d => match d.misfit? (last - first + 1) with
      | some f => .error f b
      | none => .ok () { b with ranges := b.ranges ++ [⟨first, last, device⟩] }

/-- Attaches a memory of its own to the addresses from `first` to `last`. -/
def attachMemory (b : Bus) (first last : Int) : Except Fault Bus := do
  let memory ← Ram.ofSize (.cells (last - first + 1))
  match attach first last b.devices.size (b.addDevice (.ram memory)) with
  | .ok _ b => return b
  | .error f _ => throw f

/-- A bus with a memory of its own at each range of a map. -/
def ofRanges (map : List (Int × Int)) : Except Fault Bus :=
  map.foldlM (fun b (first, last) => b.attachMemory first last) empty

/-- The device that serves an address, and the offset of the address in it. -/
def find? (b : Bus) (address : Int) : Option (Nat × Int) :=
  (b.ranges.find? fun r => r.first ≤ address ∧ address ≤ r.last).map fun r =>
    (r.device, address - r.first)

/-- An address finds the earliest range that holds it. -/
theorem find?_eq_some {b : Bus} {address : Int} {device : Nat} {offset : Int}
    (h : b.find? address = some (device, offset)) :
    ∃ r ∈ b.ranges, r.first ≤ address ∧ address ≤ r.last ∧ r.device = device ∧
      offset = address - r.first := by
  obtain ⟨r, hr, he⟩ := Option.map_eq_some_iff.1 h
  have hin := List.find?_some hr
  simp only [decide_eq_true_eq] at hin
  simp only [Prod.mk.injEq] at he
  exact ⟨r, List.mem_of_find?_eq_some hr, hin.1, hin.2, he.1, he.2.symm⟩

def readDevice (b : Bus) (device : Nat) (offset : Int) : Except Fault Int :=
  match b.devices[device]? with
  | some d => d.read offset
  | none => .error .notDevice

/-- Writes to the device with this number, whether it is attached or not. -/
def writeDevice (device : Nat) (offset data : Int) : EStateM Fault Bus Unit := fun b =>
  match b.devices[device]? with
  | none => .error .notDevice b
  | some d => match d.refusal? offset data with
    | some f => .error f b
    | none => .ok () { b with devices := b.devices.modify device (·.put offset data) }

/-- The byte at an address; nothing is recorded. -/
def peek (b : Bus) (address : Int) : Except Fault Int :=
  match b.find? address with
  | some (device, offset) => b.readDevice device offset
  | none => .error (.unmapped address)

/-- Changes the byte at an address; nothing is recorded. -/
def poke (address data : Int) : EStateM Fault Bus Unit := fun b =>
  match b.find? address with
  | some (device, offset) => writeDevice device offset data b
  | none => .error (.unmapped address) b

def record (a : Access) (b : Bus) : Bus := { b with log := b.log ++ [a] }

def read (address : Int) : EStateM Fault Bus Int := fun b =>
  match b.peek address with
  | .ok data => .ok data (b.record ⟨.read, address, data⟩)
  | .error f => .error f b

def write (address data : Int) : EStateM Fault Bus Unit := fun b =>
  match poke address data b with
  | .ok _ b => .ok () (b.record ⟨.write, address, data⟩)
  | .error f b => .error f b

/-- Puts bytes at an address and those after it, up to the first that cannot be written; nothing is
recorded. -/
def load : Int → List UInt8 → EStateM Fault Bus Unit
  | _, [] => pure ()
  | address, d :: ds => do
    poke address d.toNat
    load (address + 1) ds

def peekRun (b : Bus) : Int → Nat → Except Fault (List Int)
  | _, 0 => .ok []
  | address, n + 1 => do
    let data ← b.peek address
    let rest ← b.peekRun (address + 1) n
    return data :: rest

/-- The bytes from an address on; a length below one gives none. -/
def dump (b : Bus) (address length : Int) : Except Fault (List Int) :=
  b.peekRun address length.toNat

/-- The record of accesses, which starts anew. -/
def takeLog (b : Bus) : List Access × Bus := (b.log, { b with log := [] })

/-- Zeroes the memory that is attached and empties the record. -/
def clear (b : Bus) : Bus :=
  { b with
    devices := b.ranges.foldl (fun ds r => ds.modify r.device Device.clear) b.devices
    log := [] }

end Bus

end SpriteVM
