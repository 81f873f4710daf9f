import Mathlib.Data.List.Nodup
import SpriteVM.Proofs.Debugger.Run

namespace SpriteVM

/-- What is done with a debugger: its list edited, a step, a run, and anything a host does to the
machine behind it. -/
inductive DebugAction
  | add (b : Breakpoint)
  | replace (old new : Breakpoint)
  | remove (b : Breakpoint)
  | step
  | run (limit : Option Int) (patience : Nat)
  | host (a : HostAction)
  deriving DecidableEq, Repr

namespace DebugAction

def act : DebugAction → Debugged → Debugged
  | add b, D => ⟨D.machine, D.debugger.add b⟩
  | replace old new, D => ⟨D.machine, D.debugger.replace old new⟩
  | remove b, D => ⟨D.machine, D.debugger.remove b⟩
  | step, D => left (Debugger.step D)
  | run limit patience, D => left (Debugger.run limit patience D)
  | host a, D => left (Debugger.onMachine a.act D)

/-- The list that an action leaves. -/
def edited : DebugAction → List Breakpoint → List Breakpoint
  | add b, bs => if b ∈ bs then bs else bs ++ [b]
  | replace old new, bs => bs.replace old new
  | remove b, bs => bs.erase b
  | step, bs | run _ _, bs | host _, bs => bs

/-- No breakpoint is put in the place of another while the list has it elsewhere. -/
def Tidy : DebugAction → List Breakpoint → Prop
  | replace old new, bs => old ∈ bs → new ∈ bs → old = new
  | _, _ => True

/-- The breakpoint is added, or put in the place of one that the list has. -/
def PutsIn (c : Breakpoint) : DebugAction → List Breakpoint → Prop
  | add b, _ => b = c
  | replace old new, bs => old ∈ bs ∧ new = c
  | _, _ => False

end DebugAction

namespace Debugger

variable {D E : Debugged} {bs : List Breakpoint} {n : Nat}

section Keeps

variable {α : Type}

theorem onMachine_keeps (act : Action α) :
    Keeps (fun D : Debugged => D.debugger.breakpoints = bs) (onMachine act) := by
  intro D hD
  cases hr : act D.machine with
  | ok a q =>
    rw [Ends, onMachine_of_ok hr]
    exact hD
  | error f q =>
    rw [Ends, onMachine_of_error hr]
    exact hD

theorem step_keeps : Keeps (fun D : Debugged => D.debugger.breakpoints = bs) step :=
  (onMachine_keeps _).bind fun s => Keeps.bind (fun _ hD => hD) fun _ => Keeps.pure _ s

theorem steps_keeps (first : Bool) (n : Nat) :
    Keeps (fun D : Debugged => D.debugger.breakpoints = bs) (steps first n) := by
  induction n generalizing first with
  | zero => exact Keeps.pure _ _
  | succ n ih =>
    intro D hD
    rw [Ends, steps_succ]
    split_ifs
    · exact hD
    · have hstep := step_keeps D hD
      cases hs : step D with
      | error f E => exact hstep.error hs
      | ok s E =>
        have hE := hstep.ok hs
        dsimp only
        cases stopAfter s D.machine.state.registers E with
        | some r => exact hE
        | none => exact ih false E hE

theorem run_keeps (limit : Option Int) (patience : Nat) :
    Keeps (fun D : Debugged => D.debugger.breakpoints = bs) (run limit patience) := by
  intro D hD
  have hkeeps : Keeps (fun D : Debugged => D.debugger.breakpoints = bs)
      (steps true (fuel limit patience)) := steps_keeps true _
  have hsteps := hkeeps ⟨D.machine.entered, D.debugger⟩ hD
  cases hs : steps true (fuel limit patience) ⟨D.machine.entered, D.debugger⟩ with
  | ok r E =>
    obtain ⟨q, d⟩ := E
    have hd : d.breakpoints = bs := hsteps.ok hs
    rw [Ends, run_of_ok hs]
    exact hd
  | error f E =>
    rw [Ends, run_of_error hs]
    exact hsteps.error hs

end Keeps

end Debugger

/-- An action changes the list of breakpoints by its edit and in no other way. -/
theorem DebugAction.act_breakpoints (a : DebugAction) (D : Debugged) :
    (a.act D).debugger.breakpoints = a.edited D.debugger.breakpoints := by
  cases a with
  | add b =>
    rw [act, edited, Debugger.add]
    split_ifs <;> rfl
  | replace | remove => rfl
  | step => exact Debugger.step_keeps.left rfl
  | run limit patience => exact (Debugger.run_keeps limit patience).left rfl
  | host a => exact (Debugger.onMachine_keeps a.act).left rfl

namespace DebugAction

variable {a : DebugAction} {c : Breakpoint} {bs : List Breakpoint}

theorem replace_first {before behind : List Breakpoint} {old new : Breakpoint} (h : old ∉ before) :
    (before ++ old :: behind).replace old new = before ++ new :: behind := by
  rw [List.replace_append_right h, List.replace_cons_self]

theorem nodup_replace {old new : Breakpoint} (h : bs.Nodup) :
    (bs.replace old new).Nodup ↔ (old ∈ bs → new ∈ bs → old = new) := by
  by_cases hold : old ∈ bs
  · obtain ⟨before, behind, rfl, hfirst⟩ := List.eq_append_cons_of_mem hold
    obtain ⟨hne, hrest⟩ := List.nodup_cons.1 (List.nodup_middle.1 h)
    rw [replace_first hfirst, List.nodup_middle, List.nodup_cons, and_iff_left hrest]
    constructor
    · intro hnew _ hmem
      obtain heq | hmem := List.mem_cons.1 (List.perm_middle.mem_iff.1 hmem)
      · exact heq.symm
      · exact absurd hmem hnew
    · intro hnew hmem
      have heq : old = new :=
        hnew hold (List.perm_middle.mem_iff.2 (List.mem_cons_of_mem old hmem))
      exact hne (heq ▸ hmem)
  · rw [List.replace_of_not_mem hold]
    exact iff_of_true h fun hmem => absurd hmem hold

/-- An edit keeps a list free of duplicates exactly if it is tidy. -/
theorem nodup_edited (a : DebugAction) (h : bs.Nodup) : (a.edited bs).Nodup ↔ a.Tidy bs := by
  cases a with
  | add b =>
    refine iff_of_true ?_ trivial
    rw [edited]
    split_ifs with hb
    · exact h
    · have happ : (bs ++ [b]).Nodup ↔ (b :: bs).Nodup := List.nodup_append_comm
      exact happ.2 (List.nodup_cons.2 ⟨hb, h⟩)
  | replace old new => exact nodup_replace h
  | remove b => exact iff_of_true (h.erase b) trivial
  | step | run | host => exact iff_of_true h trivial

theorem not_mem_edited (h : c ∉ bs) (ha : ¬ a.PutsIn c bs) : c ∉ a.edited bs := by
  cases a with
  | add b =>
    have hb : c ≠ b := fun he => ha he.symm
    rw [edited]
    split_ifs <;> simp [h, hb]
  | replace old new =>
    rw [edited]
    by_cases hold : old ∈ bs
    · have hnew : c ≠ new := fun he => ha ⟨hold, he.symm⟩
      obtain ⟨before, behind, rfl, hfirst⟩ := List.eq_append_cons_of_mem hold
      rw [replace_first hfirst]
      simp_all
    · rwa [List.replace_of_not_mem hold]
  | remove b => exact fun hmem => h (List.mem_of_mem_erase hmem)
  | step | run | host => exact h

end DebugAction

/-- The breakpoint has a machine that ran from `m` stop in `t`: it waits at the counter, or the last step
hit it. -/
def Breakpoint.Stops (b : Breakpoint) (m t : Machine) : Prop :=
  b.enabled = true ∧
    (b.kind = .counter ∧ b.value = some t.state.pc ∨
      ∃ j p s, StepAt m j p s t ∧ b.Hits s p.state t.state)

namespace Debugger

variable {D E : Debugged} {limit : Option Int} {patience n : Nat}

theorem hit_of_stopAfter {s : Snapshot} {p : State}
    (h : stopAfter s p.registers D = some .breakpoint) :
    Hit D.debugger.breakpoints s p D.machine.state := by
  rw [← Breakpoint.any_stopsAfter]
  simp only [stopAfter] at h
  split_ifs at h <;> first | assumption | contradiction

/-- Where steps end at a breakpoint, one of the list had them end there. -/
theorem steps_stopped {first : Bool} (h : steps first n D = .ok (some .breakpoint) E) :
    ∃ b ∈ D.debugger.breakpoints, b.Stops D.machine E.machine := by
  induction n generalizing first D with
  | zero => exact nomatch h
  | succ n ih =>
    rw [steps_succ] at h
    by_cases hw : first = false ∧ Waits D.debugger.breakpoints D.machine.state.pc
    · rw [if_pos hw] at h
      obtain ⟨-, rfl⟩ := EStateM.Result.ok.inj h
      obtain ⟨b, hb, henabled, hk, hv⟩ := hw.2
      exact ⟨b, hb, henabled, .inl ⟨hk, hv⟩⟩
    · rw [if_neg hw] at h
      cases hs : D.machine.step with
      | error f q =>
        rw [step_of_error hs] at h
        contradiction
      | ok s q =>
        rw [step_of_ok hs] at h
        dsimp only at h
        cases hstop : stopAfter s D.machine.state.registers ⟨q, D.debugger.record [s]⟩ with
        | some r =>
          rw [hstop] at h
          obtain ⟨hr, rfl⟩ := EStateM.Result.ok.inj h
          obtain rfl := Option.some.inj hr
          obtain ⟨b, hb, henabled, hits⟩ := hit_of_stopAfter hstop
          have hlast : StepAt D.machine 0 D.machine s q := stepAt_zero.2 ⟨rfl, hs⟩
          exact ⟨b, hb, henabled, .inr ⟨0, D.machine, s, hlast, hits⟩⟩
        | none =>
          rw [hstop] at h
          obtain ⟨b, hb, henabled, hcause⟩ := ih h
          refine ⟨b, hb, henabled, hcause.imp_right ?_⟩
          intro ⟨j, p, s', hlast, hits⟩
          exact ⟨j + 1, p, s', hlast.succ hs, hits⟩

theorem run_stopped (h : run limit patience D = .ok (some .breakpoint) E) :
    ∃ b ∈ D.debugger.breakpoints, b.Stops D.machine.entered E.machine := by
  cases hs : steps true (fuel limit patience) ⟨D.machine.entered, D.debugger⟩ with
  | error f t =>
    rw [run_of_error hs] at h
    contradiction
  | ok r t =>
    obtain ⟨q, d⟩ := t
    rw [run_of_ok hs] at h
    obtain ⟨hr, rfl⟩ := EStateM.Result.ok.inj h
    have hr : r = some .breakpoint := by
      cases r with
      | none => cases limit <;> exact nomatch hr
      | some r =>
        rw [answer_some] at hr
        exact hr
    subst hr
    exact steps_stopped hs

end Debugger

/-- What a debugger without breakpoints is brought to while every action is tidy. -/
inductive TidyDebugged : Debugged → Prop
  | fresh (m : Machine) : TidyDebugged ⟨m, Debugger.fresh⟩
  | act {D : Debugged} {a : DebugAction} (h : TidyDebugged D) (ha : a.Tidy D.debugger.breakpoints) :
    TidyDebugged (a.act D)

/-- From `D` one came to `E`, and no action put this breakpoint in. -/
inductive Without (c : Breakpoint) (D : Debugged) : Debugged → Prop
  | refl : Without c D D
  | act {E : Debugged} {a : DebugAction} (h : Without c D E)
    (ha : ¬ a.PutsIn c E.debugger.breakpoints) : Without c D (a.act E)

theorem TidyDebugged.nodup {D : Debugged} (h : TidyDebugged D) : D.debugger.breakpoints.Nodup := by
  induction h with
  | fresh => exact List.nodup_nil
  | @act D a _ ha ih =>
    rw [a.act_breakpoints]
    exact (a.nodup_edited ih).2 ha

theorem Without.not_mem {c : Breakpoint} {D E : Debugged} (h : Without c D E)
    (hc : c ∉ D.debugger.breakpoints) : c ∉ E.debugger.breakpoints := by
  induction h with
  | refl => exact hc
  | @act E a _ ha ih =>
    rw [a.act_breakpoints]
    exact DebugAction.not_mem_edited ih ha

/-- The list has no breakpoint twice unless one is put beside itself in the place of another, and one
that was removed stops no run until it is put in again. -/
theorem tidy_breakpoints {D : Debugged} (hD : TidyDebugged D) :
    D.debugger.breakpoints.Nodup ∧
      (∀ a : DebugAction, (a.act D).debugger.breakpoints.Nodup ↔ a.Tidy D.debugger.breakpoints) ∧
      ∀ c E, Without c (DebugAction.act (.remove c) D) E →
        c ∉ E.debugger.breakpoints ∧
          ∀ limit patience t, Debugger.run limit patience E = .ok (some .breakpoint) t →
            ∃ b ∈ E.debugger.breakpoints, b ≠ c ∧ b.Stops E.machine.entered t.machine := by
  have hnodup : D.debugger.breakpoints.Nodup := hD.nodup
  refine ⟨hnodup, fun a => ?_, fun c E hE => ?_⟩
  · rw [a.act_breakpoints]
    exact a.nodup_edited hnodup
  · have hgone : c ∉ E.debugger.breakpoints := hE.not_mem hnodup.not_mem_erase
    refine ⟨hgone, fun limit patience t hr => ?_⟩
    obtain ⟨b, hb, hstops⟩ := Debugger.run_stopped hr
    exact ⟨b, hb, fun he => hgone (he ▸ hb), hstops⟩

def counterAt (pc : Int) : Breakpoint := ⟨.counter, some pc, none, none, true⟩

/-- In a memory of zeros, where every instruction does nothing, a run passes by the breakpoint that was
removed and stops at the other one. -/
theorem tidy_breakpoints_blank : ∃ m₀, Machine.create Bus.blank 7 = .ok m₀ ∧
    let D₁ := DebugAction.act (.add (counterAt 0x202)) ⟨m₀, Debugger.fresh⟩
    let D₂ := DebugAction.act (.replace (counterAt 0x202) (counterAt 0x204)) D₁
    let D := DebugAction.act (.add (counterAt 0x202)) D₂
    let E := DebugAction.act (.host .tick) (DebugAction.act (.remove (counterAt 0x202)) D)
    D.debugger.breakpoints = [counterAt 0x204, counterAt 0x202] ∧
      D.debugger.breakpoints.Nodup ∧ counterAt 0x202 ∉ E.debugger.breakpoints ∧
      ∃ t, Debugger.run (some 3) 0 E = .ok (some .breakpoint) t ∧ t.machine.state.pc = 0x204 ∧
        ∃ b ∈ E.debugger.breakpoints, b ≠ counterAt 0x202 ∧
          b.Stops E.machine.entered t.machine := by
  obtain ⟨m₀, h₀, hrun⟩ := Machine.exists_created Bus.blank 7 (fun m₀ =>
    match Debugger.run (some 3) 0 ⟨session [.tick] m₀, Debugger.waitingAt 0x204⟩ with
    | .ok r t => r = some .breakpoint ∧ t.machine.state.pc = 0x204
    | .error _ _ => false) (by decide +kernel)
  refine ⟨m₀, h₀, ?_⟩
  intro D₁ D₂ D E
  have hfirst : TidyDebugged D₁ := (TidyDebugged.fresh m₀).act trivial
  have hlist : D₁.debugger.breakpoints = [counterAt 0x202] := rfl
  have hsecond : TidyDebugged D₂ := by
    apply hfirst.act
    rw [hlist, DebugAction.Tidy]
    decide
  have hD : TidyDebugged D := hsecond.act trivial
  have hE : Without (counterAt 0x202) (DebugAction.act (.remove (counterAt 0x202)) D) E :=
    Without.refl.act id
  obtain ⟨hnodup, -, hremoved⟩ := tidy_breakpoints hD
  obtain ⟨hgone, hstops⟩ := hremoved (counterAt 0x202) E hE
  have heq : E = ⟨session [.tick] m₀, Debugger.waitingAt 0x204⟩ := rfl
  rw [← heq] at hrun
  cases hr : Debugger.run (some 3) 0 E with
  | error f t =>
    rw [hr] at hrun
    exact nomatch hrun
  | ok r t =>
    rw [hr] at hrun
    obtain ⟨rfl, hpc⟩ := of_decide_eq_true hrun
    exact ⟨rfl, hnodup, hgone, t, rfl, hpc, hstops _ _ t hr⟩

/-- A breakpoint put in the place of another beside itself is in the list twice; removed once, it is
still there and stops the next run. -/
theorem tidy_breakpoints_twice : ∃ m₀, Machine.create Bus.blank 7 = .ok m₀ ∧
    let D₁ := DebugAction.act (.add (counterAt 0x204)) ⟨m₀, Debugger.fresh⟩
    let D₂ := DebugAction.act (.add (counterAt 0x202)) D₁
    let D := DebugAction.act (.replace (counterAt 0x204) (counterAt 0x202)) D₂
    let E := DebugAction.act (.remove (counterAt 0x202)) D
    ¬ D.debugger.breakpoints.Nodup ∧ counterAt 0x202 ∈ E.debugger.breakpoints ∧
      ∃ t, Debugger.run (some 2) 0 E = .ok (some .breakpoint) t ∧
        (counterAt 0x202).Stops E.machine.entered t.machine := by
  obtain ⟨m₀, h₀, hrun⟩ := Machine.exists_created Bus.blank 7 (fun m₀ =>
    match Debugger.run (some 2) 0 ⟨m₀, Debugger.waitingAt 0x202⟩ with
    | .ok r _ => r = some .breakpoint
    | .error _ _ => false) (by decide +kernel)
  refine ⟨m₀, h₀, ?_⟩
  intro D₁ D₂ D E
  have hD : D.debugger.breakpoints = [counterAt 0x202, counterAt 0x202] := rfl
  have hlist : E.debugger.breakpoints = [counterAt 0x202] := rfl
  have heq : E = ⟨m₀, Debugger.waitingAt 0x202⟩ := rfl
  rw [← heq] at hrun
  cases hr : Debugger.run (some 2) 0 E with
  | error f t =>
    rw [hr] at hrun
    exact nomatch hrun
  | ok r t =>
    rw [hr] at hrun
    obtain rfl : r = some .breakpoint := of_decide_eq_true hrun
    obtain ⟨b, hb, hstops⟩ := Debugger.run_stopped hr
    rw [hlist, List.mem_singleton] at hb
    exact ⟨by simp [hD], by simp [hlist], t, rfl, hb ▸ hstops⟩

end SpriteVM
