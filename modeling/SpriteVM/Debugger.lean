import SpriteVM.Machine
import SpriteVM.Machine.Inspect

namespace SpriteVM

inductive BreakpointKind
  | counter
  | memoryRead
  | memoryWrite
  | registerValue
  | registerChange
  deriving DecidableEq, Repr

/-- A breakpoint: the value counts for the counter and register values, the address for memory and
the register name for registers. -/
structure Breakpoint where
  kind : BreakpointKind
  value : Option Int
  address : Option Int
  register : Option String
  enabled : Bool
  deriving DecidableEq, Repr

inductive StopReason
  | breakpoint
  | halted
  | quit
  | blocked
  | stepLimit
  | stopped
  deriving DecidableEq, Repr

structure Debugger where
  breakpoints : List Breakpoint
  last : Option Snapshot
  reason : Option StopReason
  history : Array Snapshot
  deriving DecidableEq, Repr

structure Debugged where
  machine : Machine
  debugger : Debugger

namespace Breakpoint

/-- Whether the program counter is one to stop before. -/
def stopsAt (b : Breakpoint) (pc : Int) : Bool :=
  b.enabled && b.kind = .counter && b.value = some pc

/-- Whether a step is one to stop after, by its accesses and by the registers before and after. -/
def stopsAfter (b : Breakpoint) (s : Snapshot) (before after : List (String × Int)) : Bool :=
  b.enabled && match b.kind with
    | .counter => false
    | .memoryRead => b.address.any (s.touched · .read)
    | .memoryWrite => b.address.any (s.touched · .write)
    | .registerValue => b.register.any fun r => after.lookup r |>.any fun n => b.value = some n
    | .registerChange => b.register.any fun r =>
      match after.lookup r, before.lookup r with
      | some new, some old => new ≠ old
      | _, _ => false

end Breakpoint

namespace Debugger

def fresh : Debugger := ⟨[], none, none, #[]⟩

/-- Adds a breakpoint that is not there yet. -/
def add (b : Breakpoint) (d : Debugger) : Debugger :=
  if b ∈ d.breakpoints then d else { d with breakpoints := d.breakpoints ++ [b] }

def replace (old new : Breakpoint) (d : Debugger) : Debugger :=
  { d with breakpoints := d.breakpoints.replace old new }

def remove (b : Breakpoint) (d : Debugger) : Debugger :=
  { d with breakpoints := d.breakpoints.erase b }

def onMachine {α : Type} (act : Action α) : EStateM Fault Debugged α := fun ⟨machine, debugger⟩ =>
  match act machine with
  | .ok a machine => .ok a ⟨machine, debugger⟩
  | .error f machine => .error f ⟨machine, debugger⟩

def step : EStateM Fault Debugged Snapshot := do
  let s ← onMachine Machine.step
  modify fun ⟨m, d⟩ => ⟨m, { d with last := some s, history := d.history.push s }⟩
  return s

/-- Why a run stops after a step, given the registers before it. -/
def stopAfter (s : Snapshot) (before : List (String × Int)) (d : Debugged) : Option StopReason :=
  let state := d.machine.state
  if state.halted then some .halted
  else if state.quit then some .quit
  else if s.executed.isNone || state.blocking then some .blocked
  else if d.debugger.breakpoints.any (·.stopsAfter s before state.registers) then some .breakpoint
  else if d.machine.trace.stopAsked then some .stopped
  else none

/-- Up to `n` steps, the first of them in any case and each other one unless a breakpoint waits at
the program counter. The answer is why the run stopped, or none when `n` steps were no reason. -/
def steps (first : Bool) : Nat → EStateM Fault Debugged (Option StopReason)
  | 0 => return none
  | n + 1 => do
    let pc ← onMachine (Machine.inspect (·.pc))
    if !first && (← get).debugger.breakpoints.any (·.stopsAt pc) then return some .breakpoint
    let before ← onMachine (Machine.inspect (·.registers))
    let s ← step
    match stopAfter s before (← get) with
    | some reason => return some reason
    | none => steps false n

/-- Runs the machine until there is a reason to stop, which is remembered; a limit below one allows
no step. A run without a limit gives up after `patience` steps and answers `none`. -/
def run (limit : Option Int) (patience : Nat) : EStateM Fault Debugged (Option StopReason) := do
  onMachine (Machine.onTrace (modify fun t => { t with stopAsked := false }))
  let reason ← match limit with
    | some n => (fun r => some (r.getD .stepLimit)) <$> steps true n.toNat
    | none => steps true patience
  modify fun ⟨m, d⟩ => ⟨m, { d with reason := reason.or d.reason }⟩
  return reason

end Debugger

end SpriteVM
