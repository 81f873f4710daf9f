import SpriteVM.Machine

namespace SpriteVM

structure Frame where
  number : Nat
  cycles : Nat
  drew : Bool
  soundActive : Bool
  blocking : Bool
  halted : Bool
  quit : Bool
  deriving DecidableEq, Repr

def Frame.terminal (f : Frame) : Bool := f.halted || f.quit

/-- The instructions a frame has room for, and the frames completed. -/
structure Host where
  cyclesPerFrame : Nat
  frames : Nat
  deriving DecidableEq, Repr

structure Hosted where
  machine : Machine
  host : Host

namespace Host

def standardCycles : Int := 10

/-- A host that has run no frame; a frame has to have room for an instruction. -/
def ofCycles (cyclesPerFrame : Int) : Except Fault Host :=
  if 0 < cyclesPerFrame then .ok ⟨cyclesPerFrame.toNat, 0⟩ else .error .cyclesPerFrame

def onMachine {α : Type} (act : Action α) : EStateM Fault Hosted α := fun ⟨machine, host⟩ =>
  match act machine with
  | .ok a machine => .ok a ⟨machine, host⟩
  | .error f machine => .error f ⟨machine, host⟩

def press (key : Int) : Action Unit := Machine.setKey key true

def release (key : Int) : Action Unit := Machine.setKey key false

/-- Executes up to `n` instructions after the `done` ones before them, fewer if the machine stops or
waits for a key, and answers how many it were in all. -/
def burst : Nat → Nat → Action Nat
  | 0, done => return done
  | n + 1, done => do
    if ← Machine.inspect fun s => s.terminal || s.blocking then return done
    discard Machine.step
    burst n (done + 1)

/-- The instructions of a frame; a frame that finds the machine waiting executes none. -/
def frameCycles (cyclesPerFrame : Nat) : Action Nat := do
  if ← Machine.inspect (·.blocking) then
    discard Machine.resolveKey
    return 0
  burst cyclesPerFrame 0

def runFrame : EStateM Fault Hosted Frame := do
  let cycles ← onMachine (frameCycles (← get).host.cyclesPerFrame)
  onMachine Machine.tick
  let drew ← onMachine Machine.takeDraw
  modify fun h => { h with host := { h.host with frames := h.host.frames + 1 } }
  let s ← onMachine (Machine.inspect id)
  return ⟨(← get).host.frames, cycles, drew, s.soundActive, s.blocking, s.halted, s.quit⟩

/-- Whether a run ends after a frame: the machine stopped, or it waits and no key is held. -/
def ends (f : Frame) (s : State) : Bool := f.terminal || (f.blocking && !s.keys.any id)

/-- Runs up to `n` frames and answers the last of them, and whether the run came to its end: a run
ends before a frame if the machine has stopped, and after one if `ends` says so. -/
def runFrames : Nat → Option Frame → EStateM Fault Hosted (Option Frame × Bool)
  | 0, last => return (last, false)
  | n + 1, last => do
    if ← onMachine (Machine.inspect (·.terminal)) then return (last, true)
    let frame ← runFrame
    if ends frame (← get).machine.state then return (some frame, true)
    runFrames n (some frame)

/-- Runs until the end, or for as many frames as allowed; fewer than one are none. The answer is the
last frame. A run without a limit gives up after `patience` frames and answers `none`. -/
def run (limit : Option Int) (patience : Nat) : EStateM Fault Hosted (Option (Option Frame)) := do
  match limit with
  | some n => return some (← runFrames n.toNat none).1
  | none =>
    let (last, ended) ← runFrames patience none
    return if ended then some last else none

end Host

end SpriteVM
