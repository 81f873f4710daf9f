import SpriteVM.Font
import SpriteVM.Instruction.Table
import SpriteVM.Machine.Arithmetic
import SpriteVM.Machine.Drawing
import SpriteVM.Machine.Transfer

namespace SpriteVM

namespace Core

/-- On to the next instruction, or to the one after it. -/
def advance (skip : Bool) : Exec Unit :=
  update fun s => { s with pc := s.pc + (if skip then 4 else 2) }

/-- A target has to lie in memory and on an even address. -/
def checkTarget (target : Int) : Exec Unit :=
  if ¬ (0 ≤ target ∧ target < State.memorySize) then fail fun s => .targetOutside target s.pc
  else if target % 2 ≠ 0 then fail fun s => .targetOdd target s.pc
  else pure ()

def jumpTo (target : Int) : Exec Unit := do
  checkTarget target
  update fun s => { s with pc := target }

/-- The target is checked before the return address is put on the stack. -/
def call (target : Int) : Exec Unit := do
  checkTarget target
  let pc ← read (·.pc)
  onState (State.push (pc + 2))
  jumpTo target

/-- The return address is taken from the stack before it is checked. -/
def ret : Exec Unit := do
  let target ← onState State.pop
  jumpTo target

def skipIf (condition : State → Bool) : Exec Unit := do
  let skip ← read condition
  advance skip

def change (f : State → State) : Exec Unit := do
  update f
  advance false

/-- Whether the key whose number a register holds is down. -/
def keyDown (x : Fin 16) : Exec Bool := do
  let key ← read (·.reg x)
  if 16 ≤ key then fail fun s => .keyRegister key x s.pc
  else match slot? key with
    | some k => read (·.keys.get k)
    | none => fail fun _ => .slotRead

/-- Stores the next random byte, cut down to the bits of `mask`. -/
def drawRandom (x : Fin 16) (mask : Int) (s : State) : State :=
  let (byte, s) := s.nextByte
  s.setReg x (Bits.and byte mask)

def execute (d : Instruction) : Exec Unit :=
  match d.kind with
  | .clear => change fun s => { s with screen := s.screen.clear, draw := true }
  | .ret => ret
  | .jump => jumpTo d.nnn
  | .call => call d.nnn
  | .jumpOffset => do jumpTo (d.nnn + (← read (·.reg State.offsetRegister)))
  | .skipEqImm => skipIf fun s => s.reg d.x = d.byte
  | .skipNeImm => skipIf fun s => s.reg d.x ≠ d.byte
  | .skipEqReg => skipIf fun s => s.reg d.x = s.reg d.y
  | .skipNeReg => skipIf fun s => s.reg d.x ≠ s.reg d.y
  | .loadImm => change (·.setReg d.x d.byte)
  | .addImm => change fun s => s.setReg d.x ((s.reg d.x + d.byte) % 256)
  | .copy => change fun s => s.setReg d.x (s.reg d.y)
  | .or => change fun s => s.setReg d.x (Bits.or (s.reg d.x) (s.reg d.y))
  | .and => change fun s => s.setReg d.x (Bits.and (s.reg d.x) (s.reg d.y))
  | .xor => change fun s => s.setReg d.x (Bits.xor (s.reg d.x) (s.reg d.y))
  | .add => change fun s => s.setFlagged d.x (.sum (s.reg d.x) (s.reg d.y))
  | .sub => change fun s => s.setFlagged d.x (.difference (s.reg d.x) (s.reg d.y))
  | .shiftRight => change fun s => s.setFlagged d.x (.halved (s.reg d.x))
  | .reverseSub => change fun s => s.setFlagged d.x (.difference (s.reg d.y) (s.reg d.x))
  | .shiftLeft => change fun s => s.setFlagged d.x (.doubled (s.reg d.x))
  | .random => change (drawRandom d.x d.byte)
  | .setIndex => change fun s => { s with i := d.nnn }
  | .addIndex => change fun s => { s with i := (s.i + s.reg d.x) % 4096 }
  | .fontAddress => change fun s => { s with i := Font.address (s.reg d.x) }
  | .bcd => do storeDecimal d.x; advance false
  | .storeRegisters => do storeRegisters d.x; advance false
  | .loadRegisters => do loadRegisters d.x; advance false
  | .draw => do drawSprite d.x d.y d.nibble.val; advance false
  | .skipKeyDown => do advance (← keyDown d.x)
  | .skipKeyUp => do advance (!(← keyDown d.x))
  | .waitKey => change fun s => { s with blocking := true, keyTarget := d.x.val }
  | .readDelay => change fun s => s.setReg d.x s.delayTimer
  | .writeDelay => change fun s => { s with delayTimer := s.reg d.x }
  | .writeSound => change fun s => { s with soundTimer := s.reg d.x }
  | .nop => advance false
  | .halt => update fun s => { s with halted := true }
  | .unknown => update fun s => { s with quit := true }

end Core

end SpriteVM
