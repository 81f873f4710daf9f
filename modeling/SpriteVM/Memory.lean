import SpriteVM.Fault

namespace SpriteVM

/-- A memory size as it is asked for. A truth value counts as zero or one cell. -/
inductive RamSize
  | cells (n : Int)
  | flag (on : Bool)
  | other
  deriving DecidableEq, Repr

/-- Byte-wide memory. The size is shown the way it was asked for. -/
structure Ram where
  cells : Array UInt8
  flagged : Bool
  deriving DecidableEq, Repr

namespace Ram

def zeroed (n : Nat) : Ram := ⟨Array.replicate n 0, false⟩

/-- Zeroed memory of the size asked for, which has to be at least one cell. -/
def ofSize : RamSize → Except Fault Ram
  | .cells n => if 0 < n then .ok (zeroed n.toNat) else .error .ramSize
  | .flag true => .ok ⟨Array.replicate 1 0, true⟩
  | .flag false | .other => .error .ramSize

def size (r : Ram) : Nat := r.cells.size

def sizeText (r : Ram) : String := if r.flagged then "True" else toString r.size

def clear (r : Ram) : Ram := { r with cells := Array.replicate r.cells.size 0 }

def holds (r : Ram) (offset : Int) : Prop := 0 ≤ offset ∧ offset < r.size

instance (r : Ram) (offset : Int) : Decidable (r.holds offset) :=
  inferInstanceAs (Decidable (_ ∧ _))

def cell (r : Ram) (k : Nat) : Int := (r.cells.getD k 0).toNat

def put (r : Ram) (k : Nat) (data : Int) : Ram :=
  { r with cells := r.cells.setIfInBounds k (UInt8.ofNat data.toNat) }

def read (r : Ram) (offset : Int) : Except Fault Int :=
  if r.holds offset then .ok (r.cell offset.toNat) else .error (.outsideRam offset r.sizeText)

/-- Why a write is refused: the offset is looked at before the data. -/
def refusal? (r : Ram) (offset data : Int) : Option Fault :=
  if ¬ r.holds offset then some (.outsideRam offset r.sizeText)
  else if 0 ≤ data ∧ data ≤ 255 then none
  else some (.notByte data)

@[simp] theorem size_zeroed (n : Nat) : (zeroed n).size = n := by simp [zeroed, size]

@[simp] theorem size_clear (r : Ram) : r.clear.size = r.size := by simp [clear, size]

@[simp] theorem size_put (r : Ram) (k : Nat) (data : Int) : (r.put k data).size = r.size := by
  simp [put, size]

theorem cell_nonneg (r : Ram) (k : Nat) : 0 ≤ r.cell k := Int.natCast_nonneg _

theorem cell_lt (r : Ram) (k : Nat) : r.cell k < 256 := by
  have h := UInt8.toNat_lt (r.cells.getD k 0)
  unfold cell
  omega

@[simp] theorem cell_clear (r : Ram) (k : Nat) : r.clear.cell k = 0 := by
  by_cases h : k < r.cells.size <;> simp [clear, cell, Array.getD_eq_getD_getElem?, h]

theorem cell_put (r : Ram) (k j : Nat) {data : Int} (h : 0 ≤ data ∧ data ≤ 255) (hk : k < r.size) :
    (r.put k data).cell j = if k = j then data else r.cell j := by
  unfold size at hk
  by_cases hj : k = j
  · subst hj
    simp [put, cell, Array.getD_eq_getD_getElem?, hk]
    omega
  · simp [put, cell, Array.getD_eq_getD_getElem?, hj]

theorem refusal?_eq_none (r : Ram) (offset data : Int) :
    r.refusal? offset data = none ↔ r.holds offset ∧ 0 ≤ data ∧ data ≤ 255 := by
  unfold refusal?
  by_cases h : r.holds offset <;> simp [h]

end Ram

/-- A device that is not memory: one number of state, what a read answers from it, and what a write
leaves in it. -/
structure Peripheral where
  state : Int
  onRead : Int → Int → Int
  onWrite : Int → Int → Int → Int

inductive Device
  | ram (memory : Ram)
  | peripheral (p : Peripheral)

namespace Device

def read : Device → Int → Except Fault Int
  | ram r, offset => r.read offset
  | peripheral p, offset => .ok (p.onRead p.state offset)

def refusal? : Device → Int → Int → Option Fault
  | ram r, offset, data => r.refusal? offset data
  | peripheral _, _, _ => none

/-- The device after a write that it does not refuse. -/
def put : Device → Int → Int → Device
  | ram r, offset, data => ram (r.put offset.toNat data)
  | peripheral p, offset, data => peripheral { p with state := p.onWrite p.state offset data }

/-- Memory is zeroed; a peripheral keeps its state. -/
def clear : Device → Device
  | ram r => ram r.clear
  | peripheral p => peripheral p

/-- The fault of attaching the device to a range of `length` addresses. -/
def misfit? : Device → Int → Option Fault
  | ram r, length => if (r.size : Int) = length then none else some (.rangeSize r.sizeText length)
  | peripheral _, _ => none

end Device

end SpriteVM
