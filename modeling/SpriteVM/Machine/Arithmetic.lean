import SpriteVM.Bits
import SpriteVM.Machine.State

namespace SpriteVM

/-- A result and the flag that goes with it. -/
structure Flagged where
  value : Int
  flag : Int
  deriving DecidableEq, Repr

namespace Flagged

def sum (a b : Int) : Flagged := ⟨(a + b) % 256, if 255 < a + b then 1 else 0⟩

/-- The flag tells that nothing had to be borrowed. -/
def difference (a b : Int) : Flagged := ⟨(a - b) % 256, if b ≤ a then 1 else 0⟩

def halved (a : Int) : Flagged := ⟨a / 2 % 256, a % 2⟩

def doubled (a : Int) : Flagged := ⟨2 * a % 256, a / 128 % 2⟩

end Flagged

def State.setFlagged (s : State) (x : Fin 16) (r : Flagged) : State :=
  (s.setReg x r.value).setReg flagRegister r.flag

end SpriteVM
