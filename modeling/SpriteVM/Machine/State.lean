import SpriteVM.Screen
import SpriteVM.Random.Twister

namespace SpriteVM

/-- The machine state. The numbers are integers of any size, since a host may set any of them; what
programs can reach is a matter of invariants. -/
structure State where
  pc : Int
  sp : Int
  i : Int
  v : Vector Int 16
  stack : Vector Int 16
  keys : Vector Bool 16
  delayTimer : Int
  soundTimer : Int
  blocking : Bool
  keyTarget : Int
  draw : Bool
  halted : Bool
  quit : Bool
  screen : Screen
  random : Twister
  deriving DecidableEq, Repr

theorem slot_lt {place : Int} (h : 0 ≤ place ∧ place < 16) : place.toNat < 16 := by omega

/-- The place of an entry in a list of sixteen; a negative place counts back from the end. -/
def slot? (place : Int) : Option (Fin 16) :=
  if h : 0 ≤ place ∧ place < 16 then some ⟨place.toNat, slot_lt h⟩
  else if h : -16 ≤ place ∧ place < 0 then some ⟨(place + 16).toNat, by omega⟩
  else none

theorem slot?_eq_some {place : Int} (h : 0 ≤ place ∧ place < 16) :
    slot? place = some ⟨place.toNat, slot_lt h⟩ := by simp [slot?, h]

namespace State

def entryPoint : Int := 0x200

/-- The number of addresses that instructions are fetched from. -/
def memorySize : Int := 0x1000

/-- The state a program starts in, its random bytes drawn from `seed`. -/
def initial (seed : Int) : State where
  pc := entryPoint
  sp := 0
  i := 0
  v := Vector.replicate 16 0
  stack := Vector.replicate 16 0
  keys := Vector.replicate 16 false
  delayTimer := 0
  soundTimer := 0
  blocking := false
  keyTarget := 0
  draw := false
  halted := false
  quit := false
  screen := Screen.standard
  random := Twister.ofSeed seed

instance : Inhabited State := ⟨initial 0⟩

/-- The register that arithmetic reports its carry or borrow in, and drawing its collisions. -/
def flagRegister : Fin 16 := ⟨15, by decide⟩

/-- The register that a jump with an offset adds to its target. -/
def offsetRegister : Fin 16 := ⟨0, by decide⟩

def widthRegister : Fin 16 := ⟨13, by decide⟩

def heightRegister : Fin 16 := ⟨14, by decide⟩

def reg (s : State) (x : Fin 16) : Int := s.v[x]

def setReg (s : State) (x : Fin 16) (value : Int) : State := { s with v := s.v.set x value }

@[simp] theorem reg_setReg (s : State) (x : Fin 16) (value : Int) :
    (s.setReg x value).reg x = value := by simp [reg, setReg]

theorem reg_setReg_of_ne (s : State) {x y : Fin 16} (h : x ≠ y) (value : Int) :
    (s.setReg x value).reg y = s.reg y := by
  have h : x.val ≠ y.val := fun e => h (Fin.ext e)
  simp [reg, setReg, h]

def flag (s : State) : Int := s.reg flagRegister

/-- Sets the flag register to the lowest eight bits of a value. -/
def setFlag (s : State) (value : Int) : State := s.setReg flagRegister (value % 256)

/-- Whether the machine has come to its end, in order or not. -/
def terminal (s : State) : Bool := s.halted || s.quit

def soundActive (s : State) : Bool := 0 < s.soundTimer

/-- Puts a return address on the call stack, which has sixteen places. -/
def push (address : Int) : EStateM Fault State Unit := fun s =>
  if 16 ≤ s.sp then .error (.stackOverflow s.pc) s
  else match slot? s.sp with
    | none => .error .slotWrite s
    | some k => .ok () { s with stack := s.stack.set k address, sp := s.sp + 1 }

def pop : EStateM Fault State Int := fun s =>
  if s.sp ≤ 0 then .error (.stackUnderflow s.pc) s
  else
    let s := { s with sp := s.sp - 1 }
    match slot? s.sp with
    | none => .error .slotRead s
    | some k => .ok s.stack[k] s

def countDown (timer : Int) : Int := if 0 < timer then timer - 1 else timer

def tick (s : State) : State :=
  { s with delayTimer := countDown s.delayTimer, soundTimer := countDown s.soundTimer }

def nextByte (s : State) : Nat × State :=
  let (byte, random) := s.random.nextByte
  (byte, { s with random := random })

def lowestKey? (s : State) : Option (Fin 16) := (List.finRange 16).find? fun k => s.keys[k]

end State

end SpriteVM
