import SpriteVM.Machine.Execute

namespace SpriteVM.Core

/-- The families of the faults that instructions raise, whatever is on the bus. -/
def families : List FaultClass :=
  [.programCounter, .stackOverflow, .stackUnderflow, .keyIndex, .index, .memoryAccess, .value, .type]

/-- Actions put together from primitive ones. -/
inductive Built : {α : Type} → Exec α → Prop
  | pure {α : Type} (a : α) : Built (Pure.pure a : Exec α)
  | bind {α β : Type} {act : Exec α} {next : α → Exec β} (h : Built act)
    (hn : ∀ a, Built (next a)) : Built (act >>= next)
  | read {α : Type} (view : State → α) : Built (Core.read view)
  | update (change : State → State) : Built (Core.update change)
  | fail {α : Type} (cause : State → Fault) (h : ∀ s, (cause s).kind ∈ families) :
    Built (Core.fail cause : Exec α)
  | onState {α : Type} (act : EStateM Fault State α)
    (h : ∀ s f t, act s = .error f t → f.kind ∈ families) : Built (Core.onState act)
  | busRead (address : Int) : Built (onBus (Bus.read address))
  | busWrite (address data : Int) : Built (onBus (Bus.write address data))

namespace Built

theorem advance (skip : Bool) : Built (advance skip) := update _

theorem change (f : State → State) : Built (change f) := (update f).bind fun _ => advance false

theorem skipIf (condition : State → Bool) : Built (skipIf condition) :=
  (read condition).bind advance

theorem checkTarget (target : Int) : Built (checkTarget target) := by
  unfold Core.checkTarget
  split
  · exact fail _ fun _ => by simp [Fault.kind, families]
  · split
    · exact fail _ fun _ => by simp [Fault.kind, families]
    · exact pure ()

theorem jumpTo (target : Int) : Built (jumpTo target) :=
  (checkTarget target).bind fun _ => update _

theorem push (address : Int) : Built (Core.onState (State.push address)) := by
  apply onState
  intro s f t h
  unfold State.push at h
  split at h
  · obtain ⟨rfl, -⟩ := EStateM.Result.error.inj h
    simp [Fault.kind, families]
  · split at h
    · obtain ⟨rfl, -⟩ := EStateM.Result.error.inj h
      simp [Fault.kind, families]
    · contradiction

theorem pop : Built (Core.onState State.pop) := by
  apply onState
  intro s f t h
  unfold State.pop at h
  split at h
  · obtain ⟨rfl, -⟩ := EStateM.Result.error.inj h
    simp [Fault.kind, families]
  · dsimp only at h
    split at h
    · obtain ⟨rfl, -⟩ := EStateM.Result.error.inj h
      simp [Fault.kind, families]
    · contradiction

theorem call (target : Int) : Built (call target) :=
  (checkTarget target).bind fun _ => (read _).bind fun _ => (push _).bind fun _ => jumpTo target

theorem ret : Built ret := pop.bind jumpTo

theorem keyDown (x : Fin 16) : Built (keyDown x) := by
  refine (read _).bind fun key => ?_
  split
  · exact fail _ fun _ => by simp [Fault.kind, families]
  · cases slot? key with
    | none => exact fail _ fun _ => by simp [Fault.kind, families]
    | some k => exact read _

theorem storeRun (base : Int) (rs : List (Fin 16)) : Built (storeRun base rs) := by
  induction rs with
  | nil => exact pure ()
  | cons r rs ih => exact (read _).bind fun value => (busWrite _ value).bind fun _ => ih

theorem loadRun (base : Int) (rs : List (Fin 16)) : Built (loadRun base rs) := by
  induction rs with
  | nil => exact pure ()
  | cons r rs ih => exact (busRead _).bind fun value => (update _).bind fun _ => ih

theorem storeDecimal (x : Fin 16) : Built (storeDecimal x) :=
  (read _).bind fun _ => (read _).bind fun _ =>
    (busWrite _ _).bind fun _ => (busWrite _ _).bind fun _ => busWrite _ _

/-- A row of a sprite is drawn by looking at the picture and changing it. -/
theorem drawRow (left top : Nat) (row : Int) : Built (drawRow left top row) := by
  have he : Core.drawRow left top row = (do
      let drawn ← Core.read fun s => s.screen.drawRow left top row
      Core.update fun s => { s with screen := drawn.2 }
      Pure.pure drawn.1) := rfl
  rw [he]
  exact (read _).bind fun drawn => (update _).bind fun _ => pure drawn.1

theorem drawRows (left top : Nat) (address : Int) (n : Nat) :
    Built (drawRows left top address n) := by
  induction n generalizing top address with
  | zero => exact pure false
  | succ n ih =>
    exact (busRead address).bind fun row => (drawRow left top row).bind fun hit =>
      (ih (top + 1) (address + 1)).bind fun further => pure (hit || further)

theorem drawSprite (x y : Fin 16) (n : Nat) : Built (drawSprite x y n) :=
  (read _).bind fun _ => (drawRows _ _ _ _).bind fun _ => update _

theorem thenAdvance {act : Exec Unit} (h : Built act) : Built (do act; Core.advance false) :=
  h.bind fun _ => advance false

/-- Every instruction is built from primitive actions. -/
theorem execute (d : Instruction) : Built (execute d) := by
  unfold Core.execute
  cases d.kind with
  | ret => exact ret
  | jump => exact jumpTo d.nnn
  | call => exact call d.nnn
  | jumpOffset => exact (read _).bind fun offset => jumpTo (d.nnn + offset)
  | skipEqImm | skipNeImm | skipEqReg | skipNeReg => exact skipIf _
  | bcd => exact (storeDecimal d.x).thenAdvance
  | storeRegisters => exact ((read _).bind fun i => storeRun i _).thenAdvance
  | loadRegisters => exact ((read _).bind fun i => loadRun i _).thenAdvance
  | draw => exact (drawSprite d.x d.y d.nibble.val).thenAdvance
  | skipKeyDown => exact (keyDown d.x).bind advance
  | skipKeyUp => exact (keyDown d.x).bind fun down => advance (!down)
  | nop => exact advance false
  | halt | unknown => exact update _
  | _ => exact change _

end Built

end SpriteVM.Core
