import SpriteVM.Machine.Core

namespace SpriteVM.Core

/-- The registers from the first to `x`. -/
def upTo (x : Fin 16) : List (Fin 16) := (List.finRange 16).take (x.val + 1)

def storeRun (base : Int) : List (Fin 16) → Exec Unit
  | [] => pure ()
  | r :: rest => do
    let value ← read (·.reg r)
    onBus (Bus.write (base + r.val) value)
    storeRun base rest

def loadRun (base : Int) : List (Fin 16) → Exec Unit
  | [] => pure ()
  | r :: rest => do
    let value ← onBus (Bus.read (base + r.val))
    update (·.setReg r value)
    loadRun base rest

def storeRegisters (x : Fin 16) : Exec Unit := do
  storeRun (← read (·.i)) (upTo x)

def loadRegisters (x : Fin 16) : Exec Unit := do
  loadRun (← read (·.i)) (upTo x)

/-- The three decimal digits of a register, the hundreds first. -/
def storeDecimal (x : Fin 16) : Exec Unit := do
  let value ← read (·.reg x)
  let base ← read (·.i)
  onBus (Bus.write base (value / 100))
  onBus (Bus.write (base + 1) (value / 10 % 10))
  onBus (Bus.write (base + 2) (value % 10))

end SpriteVM.Core
