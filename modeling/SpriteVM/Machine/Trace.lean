import SpriteVM.Machine.Snapshot

namespace SpriteVM

inductive Reaction
  | unhook (name : String)
  | stopRun
  | fail (message : String)
  deriving DecidableEq, Repr

/-- A hook is known by its name. -/
structure Hook where
  name : String
  reactions : List Reaction
  deriving DecidableEq, Repr

structure HookCall where
  hook : String
  snapshot : Snapshot
  deriving DecidableEq, Repr

structure Trace where
  hooks : List Hook
  enabled : Bool
  calls : Array HookCall
  journal : Array Snapshot
  stopAsked : Bool
  deriving DecidableEq, Repr

namespace Trace

def off : Trace := ⟨[], false, #[], #[], false⟩

def registered (t : Trace) (name : String) : Bool := t.hooks.any (·.name = name)

/-- Registers a hook unless it is registered already, and turns calls on. -/
def add (h : Hook) (t : Trace) : Trace :=
  { t with hooks := if t.registered h.name then t.hooks else t.hooks ++ [h], enabled := true }

/-- Takes a hook off the list; calls are turned off with the last one. -/
def remove (name : String) (t : Trace) : Trace :=
  let hooks := t.hooks.eraseP (·.name = name)
  { t with hooks := hooks, enabled := t.enabled && !hooks.isEmpty }

def react : List Reaction → EStateM Fault Trace Unit
  | [] => pure ()
  | .unhook name :: rest => do modify (remove name); react rest
  | .stopRun :: rest => do modify fun t => { t with stopAsked := true }; react rest
  | .fail message :: _ => throw (.hook message)

/-- Calls hooks one after the other, up to the first that fails. -/
def callAll (s : Snapshot) : List Hook → EStateM Fault Trace Unit
  | [] => pure ()
  | h :: rest => do
    modify fun t => { t with calls := t.calls.push ⟨h.name, s⟩ }
    react h.reactions
    callAll s rest

def notify (s : Snapshot) : EStateM Fault Trace Unit := do
  modify fun t => { t with journal := t.journal.push s }
  let t ← get
  if t.enabled then callAll s t.hooks

end Trace

end SpriteVM
