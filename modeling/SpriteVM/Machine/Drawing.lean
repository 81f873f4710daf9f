import SpriteVM.Machine.Core

namespace SpriteVM

/-- Whether a row of a sprite lights the cell this far from its left end. -/
def spriteBit (row : Int) (bit : Nat) : Bool := row / Nat.pow 2 (7 - bit) % 2 = 1

namespace Screen

def strike : Bool × Screen → Nat → Bool × Screen
  | (hit, s), k => let lit := s.cell k; (hit || lit, s.flip k)

/-- The columns of a row of a sprite that are to be flipped. -/
def struckBits (width left : Nat) (row : Int) : List Nat :=
  (List.range 8).filter fun bit => left + bit < width && spriteBit row bit

/-- Draws one row of a sprite and answers whether a lit cell went dark. -/
def drawRow (left top : Nat) (row : Int) (s : Screen) : Bool × Screen :=
  (struckBits s.width left row).foldl
    (fun acc bit => strike acc (top * acc.2.width + (left + bit))) (false, s)

end Screen

namespace Core

def drawRow (left top : Nat) (row : Int) : Exec Bool := fun ⟨state, bus⟩ =>
  let screen := state.screen
  -- while the state holds another picture, this one is changed in place
  let state := { state with screen := Screen.standard }
  let (hit, screen) := screen.drawRow left top row
  .ok hit ⟨{ state with screen := screen }, bus⟩

/-- Only the picture changes. -/
theorem drawRow_apply (left top : Nat) (row : Int) (c : Core) :
    drawRow left top row c = .ok (c.state.screen.drawRow left top row).1
      { c with state := { c.state with screen := (c.state.screen.drawRow left top row).2 } } := rfl

/-- Draws `n` rows read from an address on, each one below the last. -/
def drawRows (left : Nat) : Nat → Int → Nat → Exec Bool
  | _, _, 0 => pure false
  | top, address, n + 1 => do
    let row ← onBus (Bus.read address)
    let hit ← drawRow left top row
    let further ← drawRows left (top + 1) (address + 1) n
    return hit || further

/-- Draws the sprite of `n` rows at the index register, at the place two registers give. The flag
register then tells whether a lit cell went dark. -/
def drawSprite (x y : Fin 16) (n : Nat) : Exec Unit := do
  let s ← read id
  let left := (s.reg x % s.screen.width).toNat
  let top := (s.reg y % s.screen.height).toNat
  let hit ← drawRows left top s.i (min n (s.screen.height - top))
  update fun s => { s.setReg State.flagRegister (if hit then 1 else 0) with draw := true }

end Core

end SpriteVM
