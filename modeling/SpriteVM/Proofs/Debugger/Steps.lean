import SpriteVM.Proofs.Debugger.Stops
import SpriteVM.Proofs.Machine.Steps

namespace SpriteVM

variable {m p q : Machine} {s : Snapshot} {ss : List Snapshot} {j k : Nat}

/-- A machine whose hooks neither fail nor stop a run, and no stop was asked for. -/
def Machine.Tame (m : Machine) : Prop := m.trace.Tame ∧ m.trace.stopAsked = false

theorem Machine.Tame.step (hm : m.Tame) (hs : m.step = .ok s q) : q.Tame := by
  obtain ⟨ht, ha⟩ := (Machine.step_tame hm.1).ok hs
  exact ⟨ht, ha.trans hm.2⟩

theorem Machine.Tame.stepTimes (hm : m.Tame) (hk : stepTimes k m = .ok ss q) : q.Tame := by
  induction k generalizing m ss with
  | zero =>
    obtain ⟨-, rfl⟩ := stepTimes_zero.1 hk
    exact hm
  | succ k ih =>
    obtain ⟨s, m', ss', hs, hk, -⟩ := stepTimes_succ.1 hk
    exact ih (hm.step hs) hk

/-- Nothing holds a run up after a step from `p` to `q`, nor before the next one. -/
def Quiet (bs : List Breakpoint) (p : State) (s : Snapshot) (q : Machine) : Prop :=
  (∀ r, ¬ FirstOf (stepChecks bs p s q) r) ∧ ¬ Waits bs q.state.pc

namespace Debugger

variable {d : Debugger} {D : Debugged} {n : Nat}

def record (ss : List Snapshot) (d : Debugger) : Debugger :=
  { d with last := ss.getLast?.or d.last, history := d.history ++ ss }

@[simp] theorem record_nil (d : Debugger) : d.record [] = d := by
  simp [record]

theorem record_append (ss ss' : List Snapshot) (d : Debugger) :
    d.record (ss ++ ss') = (d.record ss).record ss' := by
  have hh : d.history ++ (ss ++ ss') = d.history ++ ss ++ ss' := by
    apply Array.ext'
    simp
  simp [record, List.getLast?_append, Option.or_assoc, hh]

theorem onMachine_of_ok {α : Type} {act : Action α} {a : α} (h : act D.machine = .ok a q) :
    onMachine act D = .ok a ⟨q, D.debugger⟩ := by
  unfold onMachine
  dsimp only
  rw [h]

theorem onMachine_of_error {α : Type} {act : Action α} {f : Fault}
    (h : act D.machine = .error f q) : onMachine act D = .error f ⟨q, D.debugger⟩ := by
  unfold onMachine
  dsimp only
  rw [h]

theorem step_of_ok (hs : D.machine.step = .ok s q) :
    step D = .ok s ⟨q, D.debugger.record [s]⟩ := by
  rw [step, bind_of_ok (onMachine_of_ok hs)]
  simp [record]
  rfl

theorem step_of_error {f : Fault} (hs : D.machine.step = .error f q) :
    step D = .error f ⟨q, D.debugger⟩ := by
  rw [step, bind_of_error (onMachine_of_error hs)]

theorem steps_succ (first : Bool) :
    steps first (n + 1) D =
      if first = false ∧ Waits D.debugger.breakpoints D.machine.state.pc then
        .ok (some .breakpoint) D
      else match step D with
        | .ok s D' =>
          match stopAfter s D.machine.state.registers D' with
          | some r => .ok (some r) D'
          | none => steps false n D'
        | .error f D' => .error f D' := by
  have hi {α : Type} (view : State → α) :
      onMachine (Machine.inspect view) D = .ok (view D.machine.state) D := rfl
  have hg : (get : EStateM Fault Debugged Debugged) D = .ok D D := rfl
  rw [steps, bind_of_ok (hi _), bind_of_ok hg]
  by_cases h : first = false ∧ Waits D.debugger.breakpoints D.machine.state.pc
  · have hw := (Breakpoint.any_stopsAt D.machine.state.pc).2 h.2
    rw [if_pos h, if_pos (by simp [h.1, hw])]
    rfl
  · have hn : ¬ (!first && D.debugger.breakpoints.any (·.stopsAt D.machine.state.pc)) = true := by
      rw [Bool.and_eq_true, Breakpoint.any_stopsAt, Bool.not_eq_true']
      exact h
    rw [if_neg h, if_neg hn, bind_of_ok (hi _)]
    cases hs : step D with
    | error f D' => rw [bind_of_error hs]
    | ok s D' =>
      have hg : (get : EStateM Fault Debugged Debugged) D' = .ok D' D' := rfl
      rw [bind_of_ok hs, bind_of_ok hg]
      dsimp only
      cases stopAfter s D.machine.state.registers D' <;> rfl

theorem steps_of_error {f : Fault} (hs : D.machine.step = .error f q) :
    steps true (n + 1) D = .error f ⟨q, D.debugger⟩ := by
  rw [steps_succ, if_neg (by simp), step_of_error hs]

theorem steps_of_stop {r : StopReason} (hD : D.machine.Tame) (hs : D.machine.step = .ok s q)
    (hr : FirstOf (stepChecks D.debugger.breakpoints D.machine.state s q) r) :
    steps true (n + 1) D = .ok (some r) ⟨q, D.debugger.record [s]⟩ := by
  have hstop : stopAfter s D.machine.state.registers ⟨q, D.debugger.record [s]⟩ = some r :=
    (stopAfter_eq_some ((Machine.step_executed _).ok hs) (hD.step hs).2).2 hr
  rw [steps_succ, if_neg (by simp), step_of_ok hs]
  dsimp only
  rw [hstop]

theorem steps_of_go (hD : D.machine.Tame) (hs : D.machine.step = .ok s q)
    (hr : ∀ r, ¬ FirstOf (stepChecks D.debugger.breakpoints D.machine.state s q) r) :
    steps true (n + 1) D = steps false n ⟨q, D.debugger.record [s]⟩ := by
  have hgo : stopAfter s D.machine.state.registers ⟨q, D.debugger.record [s]⟩ = none :=
    (stopAfter_eq_none ((Machine.step_executed _).ok hs) (hD.step hs).2).2 hr
  rw [steps_succ, if_neg (by simp), step_of_ok hs]
  dsimp only
  rw [hgo]

/-- But for a breakpoint that waits at the counter a run goes on as it would begin. -/
theorem steps_false (h : ¬ Waits D.debugger.breakpoints D.machine.state.pc) :
    steps false n D = steps true n D := by
  cases n with
  | zero => rfl
  | succ n => rw [steps_succ, steps_succ, if_neg (fun h' => h h'.2), if_neg (by simp)]

theorem steps_false_of_waits (h : Waits D.debugger.breakpoints D.machine.state.pc) :
    steps false (n + 1) D = .ok (some .breakpoint) D := by
  rw [steps_succ, if_pos ⟨rfl, h⟩]

/-- While nothing holds it up, a run takes the steps that the machine alone would. -/
theorem steps_of_quiet {m : Machine} {d : Debugger} (hm : m.Tame) (hj : stepTimes j m = .ok ss p)
    (hq : ∀ i < j, ∀ p s q, StepAt m i p s q → Quiet d.breakpoints p.state s q) :
    steps true (j + n) ⟨m, d⟩ = steps true n ⟨p, d.record ss⟩ := by
  -- after a step that is no reason to stop, a run goes on as if it began there: the first step of
  -- what is left is free as well, since no breakpoint waits
  induction j generalizing m d ss with
  | zero =>
    obtain ⟨rfl, rfl⟩ := stepTimes_zero.1 hj
    rw [Nat.zero_add, record_nil]
  | succ j ih =>
    obtain ⟨s, m', ss', hs, hrest, rfl⟩ := stepTimes_succ.1 hj
    obtain ⟨hgo, hw⟩ := hq 0 (Nat.succ_pos j) m s m' (stepAt_zero.2 ⟨rfl, hs⟩)
    have hq' : ∀ i < j, ∀ p s q, StepAt m' i p s q → Quiet d.breakpoints p.state s q :=
      fun i hi p s q h => hq (i + 1) (Nat.succ_lt_succ hi) p s q (h.succ hs)
    have hrecord : d.record (s :: ss') = (d.record [s]).record ss' := record_append [s] ss' d
    rw [Nat.succ_add, steps_of_go hm hs hgo, steps_false hw, hrecord]
    exact ih (hm.step hs) hrest hq'

end Debugger

end SpriteVM
