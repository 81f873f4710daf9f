import SpriteVM.Bus
import SpriteVM.Machine.State

namespace SpriteVM

structure Core where
  state : State
  bus : Bus

abbrev Exec := EStateM Fault Core

namespace Core

def onState {α : Type} (act : EStateM Fault State α) : Exec α := fun ⟨state, bus⟩ =>
  match act state with
  | .ok a state => .ok a ⟨state, bus⟩
  | .error f state => .error f ⟨state, bus⟩

def onBus {α : Type} (act : EStateM Fault Bus α) : Exec α := fun ⟨state, bus⟩ =>
  match act bus with
  | .ok a bus => .ok a ⟨state, bus⟩
  | .error f bus => .error f ⟨state, bus⟩

def update (change : State → State) : Exec Unit := fun ⟨state, bus⟩ => .ok () ⟨change state, bus⟩

def read {α : Type} (view : State → α) : Exec α := fun c => .ok (view c.state) c

def fail {α : Type} (cause : State → Fault) : Exec α := fun c => .error (cause c.state) c

/-- An action after another: it is not begun if the first fails. -/
theorem bind_apply {α β : Type} (act : Exec α) (next : α → Exec β) (c : Core) :
    (act >>= next) c = match act c with
      | .ok a c => next a c
      | .error f c => .error f c := by
  change EStateM.bind act next c = _
  unfold EStateM.bind
  cases act c <;> rfl

@[simp] theorem update_apply (change : State → State) (c : Core) :
    update change c = .ok () { c with state := change c.state } := rfl

@[simp] theorem read_apply {α : Type} (view : State → α) (c : Core) :
    read view c = .ok (view c.state) c := rfl

@[simp] theorem fail_apply {α : Type} (cause : State → Fault) (c : Core) :
    (fail cause : Exec α) c = .error (cause c.state) c := rfl

end Core

end SpriteVM
