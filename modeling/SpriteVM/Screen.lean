import SpriteVM.Fault

namespace SpriteVM

/-- A picture, its cells row by row. -/
structure Screen where
  width : Nat
  height : Nat
  cells : Array Bool
  width_pos : 1 ≤ width
  width_le : width ≤ 255
  height_pos : 1 ≤ height
  height_le : height ≤ 255
  size_cells : cells.size = width * height
  deriving DecidableEq, Repr

namespace Screen

def dark (width height : Nat) (hw : 1 ≤ width ∧ width ≤ 255) (hh : 1 ≤ height ∧ height ≤ 255) :
    Screen where
  width := width
  height := height
  cells := Array.replicate (width * height) false
  width_pos := hw.1
  width_le := hw.2
  height_pos := hh.1
  height_le := hh.2
  size_cells := Array.size_replicate

/-- The picture of a machine whose program asks for no other size. -/
def standard : Screen := dark 64 32 (by decide) (by decide)

instance : Inhabited Screen := ⟨standard⟩

/-- A dark picture of the size asked for; a dimension outside 1 to 255 is refused. -/
def ofSize (width height : Int) : Except Fault Screen :=
  if h : (1 ≤ width ∧ width ≤ 255) ∧ (1 ≤ height ∧ height ≤ 255) then
    .ok (dark width.toNat height.toNat (by omega) (by omega))
  else .error (.geometry width height)

def clear (s : Screen) : Screen :=
  { s with
    cells := Array.replicate (s.width * s.height) false
    size_cells := Array.size_replicate }

/-- Where a coordinate pair lies among the cells. -/
def index? (s : Screen) (x y : Int) : Option Nat :=
  if 0 ≤ x ∧ x < s.width ∧ 0 ≤ y ∧ y < s.height then some (y.toNat * s.width + x.toNat) else none

def cell (s : Screen) (k : Nat) : Bool := s.cells.getD k false

/-- Flips the cell with this number; a number beyond the last cell is ignored. -/
def flip (s : Screen) (k : Nat) : Screen :=
  { s with
    cells := s.cells.modify k not
    size_cells := by simp [s.size_cells] }

@[simp] theorem cell_dark (w h : Nat) (hw : 1 ≤ w ∧ w ≤ 255) (hh : 1 ≤ h ∧ h ≤ 255) (k : Nat) :
    (dark w h hw hh).cell k = false := by
  by_cases hk : k < w * h <;> simp [dark, cell, Array.getD_eq_getD_getElem?, hk]

@[simp] theorem cell_clear (s : Screen) (k : Nat) : s.clear.cell k = false := by
  by_cases hk : k < s.width * s.height <;> simp [clear, cell, Array.getD_eq_getD_getElem?, hk]

@[simp] theorem width_flip (s : Screen) (k : Nat) : (s.flip k).width = s.width := rfl

theorem cell_flip (s : Screen) {k : Nat} (hk : k < s.width * s.height) (j : Nat) :
    (s.flip k).cell j = if k = j then !s.cell j else s.cell j := by
  rw [← s.size_cells] at hk
  by_cases hj : k = j
  · subst hj
    simp [flip, cell, Array.getD_eq_getD_getElem?, Array.getElem_modify, hk]
  · simp [flip, cell, Array.getD_eq_getD_getElem?, Array.getElem?_modify, hj]

/-- A coordinate pair inside the picture has a cell. -/
theorem index?_lt {s : Screen} {x y : Int} {k : Nat} (h : s.index? x y = some k) :
    k < s.width * s.height := by
  unfold index? at h
  split at h
  · next hxy =>
    obtain rfl := Option.some.inj h
    have hy : y.toNat + 1 ≤ s.height := by omega
    have hx : x.toNat < s.width := by omega
    calc y.toNat * s.width + x.toNat < (y.toNat + 1) * s.width := by rw [Nat.add_mul]; omega
      _ ≤ s.height * s.width := Nat.mul_le_mul_right _ hy
      _ = s.width * s.height := Nat.mul_comm ..
  · contradiction

def pixelFault (s : Screen) (x y : Int) : Fault := .pixel x y s.width s.height

def pixel (s : Screen) (x y : Int) : Except Fault Bool :=
  match s.index? x y with
  | some k => .ok (s.cell k)
  | none => .error (s.pixelFault x y)

/-- Flips the cell at a coordinate pair and answers whether it was lit. -/
def toggle (x y : Int) : EStateM Fault Screen Bool := fun s =>
  match s.index? x y with
  | some k => .ok (s.cell k) (s.flip k)
  | none => .error (s.pixelFault x y) s

def resize (width height : Int) : EStateM Fault Screen Unit := fun s =>
  match ofSize width height with
  | .ok new => .ok () new
  | .error f => .error f s

/-- The cells in rows, the top row first. -/
def rows (s : Screen) : List (List Bool) :=
  (List.range s.height).map fun y => (List.range s.width).map fun x => s.cell (y * s.width + x)

/-- The cells one after the other, a byte for each. -/
def bytes (s : Screen) : List UInt8 := s.cells.toList.map fun lit => if lit then 1 else 0

def litCount (s : Screen) : Nat := s.cells.toList.count true

end Screen

end SpriteVM
