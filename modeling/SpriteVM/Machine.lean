import SpriteVM.Machine.Execute
import SpriteVM.Machine.Trace

namespace SpriteVM

/-- A machine with the number its random bytes come from, the count of executed instructions and
the instruction fetched last. -/
structure Machine where
  core : Core
  seed : Int
  cycles : Nat
  fetched : Option Instruction
  trace : Trace

/-- An action on a machine. One that fails keeps what it did before. -/
abbrev Action := EStateM Fault Machine

namespace Machine

def state (m : Machine) : State := m.core.state

def bus (m : Machine) : Bus := m.core.bus

def onCore {α : Type} (act : Exec α) : Action α := fun ⟨core, seed, cycles, fetched, trace⟩ =>
  match act core with
  | .ok a core => .ok a ⟨core, seed, cycles, fetched, trace⟩
  | .error f core => .error f ⟨core, seed, cycles, fetched, trace⟩

def onBus {α : Type} (act : EStateM Fault Bus α) : Action α := onCore (Core.onBus act)

def onTrace {α : Type} (act : EStateM Fault Trace α) : Action α :=
  fun ⟨core, seed, cycles, fetched, trace⟩ =>
    match act trace with
    | .ok a trace => .ok a ⟨core, seed, cycles, fetched, trace⟩
    | .error f trace => .error f ⟨core, seed, cycles, fetched, trace⟩

def update (change : State → State) : Action Unit := onCore (Core.update change)

def inspect {α : Type} (view : State → α) : Action α := fun m => .ok (view m.state) m

/-- The record of bus accesses, which starts anew. -/
def takeLog : Action (List Access) := onBus fun b => let (log, b) := b.takeLog; .ok log b

def installFont : Action Unit := onBus (Bus.load Font.base Font.sprites)

/-- A machine on a bus, with the font in memory. -/
def create (bus : Bus) (seed : Int) : Except Fault Machine :=
  match installFont ⟨⟨State.initial seed, bus⟩, seed, 0, none, Trace.off⟩ with
  | .ok _ m => .ok m
  | .error f _ => .error f

/-- Back to the start: memory is zeroed and the font installed, and the random bytes begin again.
The hooks stay. -/
def reset : Action Unit := do
  modify fun m => { m with core := ⟨State.initial m.seed, m.bus.clear⟩, cycles := 0 }
  installFont

/-- Reads the instruction at an address, its higher byte first. -/
def readInstruction (address : Int) : EStateM Fault Bus Instruction := do
  let high ← Bus.read address
  let low ← Bus.read (address + 1)
  return Instruction.decode (Bits.or (high * 256) low) address

/-- Fetches from the program counter, which has to be even and in memory. -/
def fetch : Action Int := do
  let pc ← inspect (·.pc)
  if ¬ (0 ≤ pc ∧ pc < State.memorySize) ∨ pc % 2 ≠ 0 then throw (.counter pc)
  let d ← onBus (readInstruction pc)
  modify fun m => { m with fetched := some d }
  return d.word

/-- The instruction of a word at the program counter, taken from the last fetch where it fits. -/
def decode (m : Machine) (word : Int) : Instruction :=
  match m.fetched with
  | some d =>
    if d.word = word ∧ d.address = m.state.pc then d else Instruction.decode word m.state.pc
  | none => Instruction.decode word m.state.pc

/-- One cycle. A stopped machine refuses, and one that waits for a key stays as it is. -/
def step : Action Snapshot := do
  let m ← get
  if m.state.terminal then throw (.stopped m.state.halted)
  else if m.state.blocking then return ⟨none, m.cycles, []⟩
  else
    discard takeLog
    let word ← fetch
    let d := (← get).decode word
    onCore (Core.execute d)
    let accesses ← takeLog
    modify fun m => { m with cycles := m.cycles + 1 }
    let s := ⟨some d, (← get).cycles, accesses⟩
    onTrace (Trace.notify s)
    return s

/-- A dark picture of another size, which two registers tell the program. -/
def resizeScreen (width height : Int) : Action Unit := do
  match Screen.ofSize width height with
  | .error _ => throw (.programGeometry width height)
  | .ok screen =>
    update fun s =>
      { (s.setReg State.widthRegister width).setReg State.heightRegister height with
        screen := screen
        draw := true }

def setKey (key : Int) (down : Bool) : Action Unit := do
  if h : 0 ≤ key ∧ key < 16 then
    update fun s => { s with keys := s.keys.set key.toNat down (slot_lt h) }
  else throw (.hostKey key)

/-- Ends the wait for a key if one is held: the register waited for gets the lowest of them. -/
def resolveKey : Action Bool := do
  if !(← inspect (·.blocking)) then return false
  match ← inspect (·.lowestKey?) with
  | none => return false
  | some key =>
    match slot? (← inspect (·.keyTarget)) with
    | none => throw .slotWrite
    | some x =>
      update fun s => { s.setReg x key.val with blocking := false }
      return true

def tick : Action Unit := update State.tick

/-- Whether the picture was drawn on since this was last asked. -/
def takeDraw : Action Bool := do
  let drew ← inspect (·.draw)
  update fun s => { s with draw := false }
  return drew

end Machine

end SpriteVM
