import SpriteVM.Proofs.Debugger.Edits
import SpriteVM.Proofs.Host.Cycles
import SpriteVM.Proofs.Machine.CoreAction

namespace SpriteVM

open Machine (Idles Through)

theorem HostAction.act_idles {a : HostAction} (hs : a ≠ .step) (hr : a ≠ .reset) (m : Machine) :
    Idles m (left (a.act m)) := by
  have hrandom := (HostAction.act_changes hs hr m).random
  cases a.scope with
  | step => exact absurd rfl hs
  | reset => exact absurd rfl hr
  | addHook | removeHook | setTrace => exact ⟨rfl, rfl, rfl, hrandom⟩
  | core h =>
    obtain ⟨e, he⟩ := h
    refine ⟨?_, ?_, ?_, hrandom⟩ <;> rw [he, Machine.left_onCore]

namespace Debugger

variable {D : Debugged}

/-- The machines in which the steps of a run begin. -/
def starts (first : Bool) : Nat → Debugged → List Machine
  | 0, _ => []
  | n + 1, D =>
    if first = false ∧ Waits D.debugger.breakpoints D.machine.state.pc then []
    else D.machine :: match step D with
      | .ok s D' =>
        match stopAfter s D.machine.state.registers D' with
        | some _ => []
        | none => starts false n D'
      | .error _ _ => []

theorem left_onMachine {α : Type} (act : Action α) (D : Debugged) :
    left (onMachine act D) = ⟨left (act D.machine), D.debugger⟩ := by
  unfold onMachine
  dsimp only
  cases act D.machine <;> rfl

theorem step_through (D : Debugged) :
    Through D.machine [D.machine] (left (step D)).machine := by
  have hcycle := Through.cycle D.machine
  cases hs : D.machine.step with
  | ok s q =>
    rw [hs] at hcycle
    rw [step_of_ok hs]
    exact hcycle
  | error f q =>
    rw [hs] at hcycle
    rw [step_of_error hs]
    exact hcycle

theorem steps_through (first : Bool) (n : Nat) (D : Debugged) :
    Through D.machine (starts first n D) (left (steps first n D)).machine := by
  induction n generalizing first D with
  | zero => exact Through.refl D.machine
  | succ n ih =>
    rw [steps_succ, starts]
    split_ifs with hwaits
    · exact Through.refl D.machine
    · have hfirst := step_through D
      cases hs : step D with
      | error f D' =>
        rw [hs] at hfirst
        exact hfirst
      | ok s D' =>
        rw [hs] at hfirst
        dsimp only
        cases stopAfter s D.machine.state.registers D' with
        | some r => exact hfirst
        | none => exact hfirst.trans (ih false D')

theorem run_through (limit : Option Int) (patience : Nat) (D : Debugged) :
    Through D.machine (starts true (fuel limit patience) ⟨D.machine.entered, D.debugger⟩)
      (left (run limit patience D)).machine := by
  have hsteps := steps_through true (fuel limit patience) ⟨D.machine.entered, D.debugger⟩
  have hentered : Idles D.machine D.machine.entered := ⟨rfl, rfl, rfl, rfl⟩
  have hall := (Through.idle hentered).trans hsteps
  rw [List.nil_append] at hall
  cases hr : steps true (fuel limit patience) ⟨D.machine.entered, D.debugger⟩ with
  | ok r D' =>
    rw [hr] at hall
    rw [run_of_ok hr]
    exact hall
  | error f D' =>
    rw [hr] at hall
    rw [run_of_error hr]
    exact hall

end Debugger

namespace DebugAction

/-- The machines in which the cycles of an action begin. -/
def starts : DebugAction → Debugged → List Machine
  | step, D | host .step, D => [D.machine]
  | run limit patience, D =>
    Debugger.starts true (Debugger.fuel limit patience) ⟨D.machine.entered, D.debugger⟩
  | _, _ => []

theorem act_through {a : DebugAction} (ha : a ≠ .host .reset) (D : Debugged) :
    Through D.machine (a.starts D) (a.act D).machine := by
  cases a with
  | add | replace | remove => exact Through.refl D.machine
  | step => exact Debugger.step_through D
  | run limit patience => exact Debugger.run_through limit patience D
  | host a =>
    rw [act, Debugger.left_onMachine]
    by_cases hs : a = .step
    · subst hs
      rw [HostAction.act, left_map]
      exact Through.cycle D.machine
    · have hr : a ≠ .reset := fun h => ha (congrArg _ h)
      have hidle := Through.idle (HostAction.act_idles hs hr D.machine)
      cases a with
      | step => exact absurd rfl hs
      | _ => exact hidle

end DebugAction

/-- What is done to a machine: a call of a host that drives it, or an action of a debugger on it, which
may be one of a host without frames. -/
inductive Drive
  | frames (host : Host) (call : HostCall)
  | debug (debugger : Debugger) (action : DebugAction)

namespace Drive

def act : Drive → Machine → Machine
  | frames host call, m => (left (call.act ⟨m, host⟩)).machine
  | debug debugger action, m => (action.act ⟨m, debugger⟩).machine

def starts : Drive → Machine → List Machine
  | frames host call, m => call.starts ⟨m, host⟩
  | debug debugger action, m => action.starts ⟨m, debugger⟩

def Resets (d : Drive) : Prop := ∃ debugger, d = .debug debugger (.host .reset)

variable {d : Drive}

theorem act_through (hd : ¬ d.Resets) (m : Machine) : Through m (d.starts m) (d.act m) := by
  cases d with
  | frames host call => exact call.act_through ⟨m, host⟩
  | debug debugger action =>
    refine DebugAction.act_through ?_ ⟨m, debugger⟩
    rintro rfl
    exact hd ⟨debugger, rfl⟩

theorem act_of_resets (hd : d.Resets) (m : Machine) : d.act m = left (Machine.reset m) := by
  obtain ⟨debugger, rfl⟩ := hd
  rw [act, DebugAction.act, Debugger.left_onMachine, HostAction.act, left_map]

theorem act_seed (d : Drive) (m : Machine) : (d.act m).seed = m.seed := by
  by_cases hd : d.Resets
  · obtain ⟨b, hb⟩ := m.left_reset
    rw [act_of_resets hd, hb]
  · exact (act_through hd m).seed

end Drive

def driven (ds : List Drive) (m : Machine) : Machine := ds.foldl (fun m d => d.act m) m

/-- The machines in which the cycles begin that are gone through in all. -/
def drivenStarts : List Drive → Machine → List Machine
  | [], _ => []
  | d :: ds, m => d.starts m ++ drivenStarts ds (d.act m)

theorem driven_seed (ds : List Drive) (m : Machine) : (driven ds m).seed = m.seed := by
  induction ds generalizing m with
  | nil => rfl
  | cons d ds ih => exact (ih (d.act m)).trans (d.act_seed m)

theorem driven_through {ds : List Drive} (hds : ∀ d ∈ ds, ¬ d.Resets) (m : Machine) :
    Through m (drivenStarts ds m) (driven ds m) := by
  induction ds generalizing m with
  | nil => exact Through.refl m
  | cons d ds ih =>
    obtain ⟨hd, hrest⟩ := List.forall_mem_cons.1 hds
    exact (Drive.act_through hd m).trans (ih hrest (d.act m))

end SpriteVM
