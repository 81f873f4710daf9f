import Mathlib.Tactic.SplitIfs
import SpriteVM.Proofs.Debugger.Run

namespace SpriteVM

def Debugged.withReason (x : Option StopReason) (D : Debugged) : Debugged :=
  ⟨D.machine, { D.debugger with reason := x }⟩

def mapState {ε σ τ α : Type} (g : σ → τ) : EStateM.Result ε σ α → EStateM.Result ε τ α
  | .ok a t => .ok a (g t)
  | .error f t => .error f (g t)

namespace Debugger

variable {D D' : Debugged} {n k : Nat} {first : Bool} {r : Option StopReason}

theorem step_withReason (x : Option StopReason) (D : Debugged) :
    step (D.withReason x) = mapState (Debugged.withReason x) (step D) := by
  cases hs : D.machine.step with
  | ok s q =>
    have hs' : (D.withReason x).machine.step = .ok s q := hs
    rw [step_of_ok hs, step_of_ok hs']
    rfl
  | error f q =>
    have hs' : (D.withReason x).machine.step = .error f q := hs
    rw [step_of_error hs, step_of_error hs']
    rfl

/-- Why the last run stopped plays no part in the next one. -/
theorem steps_withReason (x : Option StopReason) (first : Bool) (n : Nat) (D : Debugged) :
    steps first n (D.withReason x) = mapState (Debugged.withReason x) (steps first n D) := by
  induction n generalizing first D with
  | zero => rfl
  | succ n ih =>
    rw [steps_succ, steps_succ, step_withReason]
    change (if first = false ∧ Waits D.debugger.breakpoints D.machine.state.pc then _ else _) = _
    split
    · rfl
    · cases step D with
      | error f D' => rfl
      | ok s D' =>
        have hsame : stopAfter s (D.withReason x).machine.state.registers (D'.withReason x) =
            stopAfter s D.machine.state.registers D' := rfl
        simp only [mapState, hsame]
        cases stopAfter s D.machine.state.registers D' with
        | some r => rfl
        | none => exact ih false D'

theorem ends_steps_reason (first : Bool) (n : Nat) (D : Debugged) :
    Ends (steps first n) (fun _ E => E.debugger.reason = D.debugger.reason)
      (fun _ E => E.debugger.reason = D.debugger.reason) D := by
  have hx := steps_withReason D.debugger.reason first n D
  rw [show D.withReason D.debugger.reason = D from rfl] at hx
  refine Ends.of_forall (fun r E hr => ?_) fun f E hr => ?_
  · rw [hr] at hx
    exact congrArg (fun D => D.debugger.reason) (EStateM.Result.ok.inj hx).2
  · rw [hr] at hx
    exact congrArg (fun D => D.debugger.reason) (EStateM.Result.error.inj hx).2

theorem steps_succ_eq_none (h : steps first (n + 1) D = .ok none D') :
    ∃ s D₁, step D = .ok s D₁ ∧ stopAfter s D.machine.state.registers D₁ = none ∧
      ¬ (first = false ∧ Waits D.debugger.breakpoints D.machine.state.pc) ∧
      steps false n D₁ = .ok none D' := by
  rw [steps_succ] at h
  split at h
  · simp at h
  · next hw =>
    cases hs : step D with
    | error f D₁ => simp [hs] at h
    | ok s D₁ =>
      simp only [hs] at h
      cases hr : stopAfter s D.machine.state.registers D₁ with
      | some r => simp [hr] at h
      | none =>
        simp only [hr] at h
        exact ⟨s, D₁, rfl, hr, hw, h⟩

/-- Steps that were no reason to stop, and the steps after them. -/
theorem steps_add (h : steps first n D = .ok none D') :
    steps first (n + k) D = steps (first && n = 0) k D' := by
  induction n generalizing first D with
  | zero =>
    obtain rfl := (EStateM.Result.ok.inj h).2
    simp
  | succ n ih =>
    obtain ⟨s, D₁, hs, hr, hw, hrest⟩ := steps_succ_eq_none h
    rw [Nat.succ_add, steps_succ, if_neg hw, hs]
    dsimp only
    rw [hr]
    dsimp only
    rw [ih hrest]
    simp

/-- A step that is no reason to stop leaves a machine that is ready for another one. -/
theorem ready_of_stopAfter {s : Snapshot} {before : List (String × Int)}
    (h : stopAfter s before D = none) :
    D.machine.Active ∧ D.machine.trace.stopAsked = false := by
  unfold stopAfter at h
  dsimp only at h
  split_ifs at h
  next hhalted hquit hblocking _ ha =>
    have hterminal : D.machine.state.terminal = false := by simp [State.terminal, hhalted, hquit]
    obtain ⟨-, hrunning⟩ : _ ∧ D.machine.state.blocking = false := by simpa using hblocking
    exact ⟨⟨hterminal, hrunning⟩, Bool.eq_false_iff.2 ha⟩

theorem ready_of_steps (h : steps first (n + 1) D = .ok none D') :
    D'.machine.Active ∧ D'.machine.trace.stopAsked = false := by
  obtain ⟨s, D₁, -, hr, -, hrest⟩ := steps_succ_eq_none h
  induction n generalizing first D s D₁ with
  | zero =>
    obtain rfl := (EStateM.Result.ok.inj hrest).2
    exact ready_of_stopAfter hr
  | succ n ih =>
    obtain ⟨s', D₂, -, hr', -, hrest'⟩ := steps_succ_eq_none hrest
    exact ih hrest s' D₂ hr' hrest'

theorem stopAfter_ne_stepLimit (s : Snapshot) (before : List (String × Int)) (D : Debugged) :
    stopAfter s before D ≠ some .stepLimit := by
  unfold stopAfter
  dsimp only
  split_ifs <;> simp

/-- The step from `D` that told `s` was taken on the way to `E`. -/
def Behind (D : Debugged) (s : Snapshot) (E : Debugged) : Prop :=
  D.debugger.history.toList ++ [s] <+: E.debugger.history.toList

theorem behind_record (D : Debugged) (s : Snapshot) (q : Machine) :
    Behind D s ⟨q, D.debugger.record [s]⟩ :=
  ⟨[], by simp [record]⟩

/-- Steps add to the history, and never take from it. -/
theorem steps_history (first : Bool) (n : Nat) (D : Debugged) :
    Ends (steps first n) (fun _ E => D.debugger.history.toList <+: E.debugger.history.toList)
      (fun _ E => D.debugger.history.toList <+: E.debugger.history.toList) D := by
  induction n generalizing first D with
  | zero => exact List.prefix_refl _
  | succ n ih =>
    rw [Ends, steps_succ]
    split_ifs
    · exact List.prefix_refl _
    · cases hs : D.machine.step with
      | error f q => simp [step_of_error hs]
      | ok s q =>
        have hgrown : D.debugger.history.toList <+: (D.debugger.record [s]).history.toList :=
          (List.prefix_append _ _).trans (behind_record D s q)
        rw [step_of_ok hs]
        dsimp only
        cases stopAfter s D.machine.state.registers ⟨q, D.debugger.record [s]⟩ with
        | some r => exact hgrown
        | none => exact (ih false _).mono fun _ => hgrown.trans

/-- Whatever waits there, a run begins with a step. -/
theorem steps_behind {s : Snapshot} {q : Machine} (hs : D.machine.step = .ok s q) (n : Nat) :
    Ends (steps true (n + 1)) (fun _ E => Behind D s E) (fun _ E => Behind D s E) D := by
  have hfirst := behind_record D s q
  rw [Ends, steps_succ, if_neg (by simp), step_of_ok hs]
  dsimp only
  cases stopAfter s D.machine.state.registers ⟨q, D.debugger.record [s]⟩ with
  | some r => exact hfirst
  | none => exact (steps_history false n _).mono fun _ => hfirst.trans

theorem steps_ne_stepLimit (first : Bool) (n : Nat) (D : Debugged) :
    Ends (steps first n) (fun r _ => r ≠ some .stepLimit) (fun _ _ => True) D := by
  induction n generalizing first D with
  | zero => exact (Option.some_ne_none _).symm
  | succ n ih =>
    rw [Ends, steps_succ]
    split_ifs
    · simp
    · cases step D with
      | error f D₁ => trivial
      | ok s D₁ =>
        dsimp only
        have hne := stopAfter_ne_stepLimit s D.machine.state.registers D₁
        cases hr : stopAfter s D.machine.state.registers D₁ with
        | some r =>
          rw [hr] at hne
          exact hne
        | none => exact ih false D₁

theorem run_limit_of_ok {E : Debugged} (patience : Nat)
    (h : steps true n ⟨D.machine.entered, D.debugger⟩ = .ok r E) :
    run (some (n : Int)) patience D =
      .ok (some (r.getD .stepLimit)) (E.withReason (some (r.getD .stepLimit))) := by
  have hfuel : fuel (some (n : Int)) patience = n := rfl
  rw [← hfuel] at h
  exact run_of_ok h

theorem run_limit_of_error {f : Fault} {E : Debugged} (patience : Nat)
    (h : steps true n ⟨D.machine.entered, D.debugger⟩ = .error f E) :
    run (some (n : Int)) patience D = .error f E := by
  have hfuel : fuel (some (n : Int)) patience = n := rfl
  rw [← hfuel] at h
  exact run_of_error h

theorem run_eq_stepLimit {patience : Nat}
    (h : run (some (n : Int)) patience D = .ok (some .stepLimit) D') :
    ∃ E, steps true n ⟨D.machine.entered, D.debugger⟩ = .ok none E ∧
      D' = E.withReason (some .stepLimit) := by
  have hne := steps_ne_stepLimit true n ⟨D.machine.entered, D.debugger⟩
  cases hs : steps true n ⟨D.machine.entered, D.debugger⟩ with
  | error f E =>
    rw [run_limit_of_error patience hs] at h
    contradiction
  | ok r E =>
    rw [run_limit_of_ok patience hs] at h
    obtain ⟨hr, rfl⟩ := EStateM.Result.ok.inj h
    cases r with
    | some r => exact absurd hr (hne.ok hs)
    | none => exact ⟨E, rfl, rfl⟩

variable {E : Debugged} {m : Nat}

/-- The steps of a run that its limit ended, and those of a second run, as one. -/
theorem steps_seam (h : steps true n D = .ok none E)
    (hseam : n = 0 ∨ m = 0 ∨ ¬ Waits E.debugger.breakpoints E.machine.state.pc) :
    steps true (n + m) D = steps true m E := by
  rw [steps_add h, Bool.true_and]
  obtain hn | hm | hw := hseam
  · simp [hn]
  · subst hm
    rfl
  · cases n with
    | zero => rfl
    | succ n => exact steps_false hw

theorem steps_seam_of_waits (h : steps true n D = .ok none E) (hn : n ≠ 0) (hm : m ≠ 0)
    (hw : Waits E.debugger.breakpoints E.machine.state.pc) :
    steps true (n + m) D = .ok (some .breakpoint) E := by
  obtain ⟨k, rfl⟩ := Nat.exists_eq_succ_of_ne_zero hm
  rw [steps_add h, Bool.true_and, decide_eq_false hn, steps_false_of_waits hw]

/-- A second run begins where the first ended: there was no stop asked for that it could forget. -/
theorem entered_of_steps (h : steps true n ⟨D.machine.entered, D.debugger⟩ = .ok none E) :
    E.machine.entered = E.machine := by
  cases n with
  | zero =>
    obtain rfl := (EStateM.Result.ok.inj h).2
    rfl
  | succ n => rw [Machine.entered, ← (ready_of_steps h).2]

theorem steps_second (h : steps true n ⟨D.machine.entered, D.debugger⟩ = .ok none E)
    (x : Option StopReason) (m : Nat) :
    steps true m ⟨(E.withReason x).machine.entered, (E.withReason x).debugger⟩ =
      mapState (Debugged.withReason x) (steps true m E) := by
  have hentered := entered_of_steps h
  have hsame : (E.withReason x).machine.entered = (E.withReason x).machine := hentered
  rw [hsame]
  exact steps_withReason x true m E

/-- A run executes what stands at the counter of `D` first, and fails if that does. -/
structure Resumes (act : EStateM Fault Debugged (Option StopReason)) (D : Debugged) : Prop where
  fails : ∀ f q, D.machine.step = .error f q → act D = .error f ⟨q, D.debugger⟩
  executes : ∀ s q, D.machine.step = .ok s q →
    (∃ d, s.executed = some d ∧ d.address = D.machine.state.pc) ∧
      Ends act (fun _ E => Behind D s E) (fun _ E => Behind D s E) D

theorem run_resumes {patience : Nat} (he : D.machine.entered = D.machine) (ha : D.machine.Active)
    (hm : m ≠ 0) : Resumes (run (some (m : Int)) patience) D where
  fails f q hs := by
    obtain ⟨k, rfl⟩ := Nat.exists_eq_succ_of_ne_zero hm
    refine run_limit_of_error patience ?_
    rw [he]
    exact steps_of_error hs
  executes s q hs := by
    obtain ⟨k, rfl⟩ := Nat.exists_eq_succ_of_ne_zero hm
    constructor
    · obtain ⟨d, hd⟩ := Option.isSome_iff_exists.1 (ha.executed hs)
      obtain ⟨-, -, b, -, -, hr, -⟩ := Machine.step_eq_ok hs hd
      obtain ⟨high, low, -, -, -, rfl⟩ := Machine.readInstruction_eq_ok hr
      exact ⟨_, hd, rfl⟩
    · have hbehind := steps_behind hs k
      cases hr : steps true (k + 1) D with
      | ok r E =>
        have hgrown : Behind D s E := hbehind.ok hr
        rw [Ends, run_limit_of_ok patience (by rwa [he])]
        exact hgrown
      | error f E =>
        rw [Ends, run_limit_of_error patience (by rwa [he])]
        exact hbehind.error hr

/-- Two runs come to what one does, unless a breakpoint waits between them: the one run stops there,
and the second of the two executes what the breakpoint waits for. -/
theorem run_split {patience : Nat}
    (h : run (some (n : Int)) patience D = .ok (some .stepLimit) D') :
    (n = 0 ∨ m = 0 ∨ ¬ Waits D'.debugger.breakpoints D'.machine.state.pc →
      (∀ r E, run (some (m : Int)) patience D' = .ok r E →
        run (some ((n + m : Nat) : Int)) patience D = .ok r E) ∧
      ∀ f E, run (some (m : Int)) patience D' = .error f E →
        run (some ((n + m : Nat) : Int)) patience D = .error f (E.withReason D.debugger.reason)) ∧
    (n ≠ 0 → m ≠ 0 → Waits D'.debugger.breakpoints D'.machine.state.pc →
      run (some ((n + m : Nat) : Int)) patience D =
          .ok (some .breakpoint) (D'.withReason (some .breakpoint)) ∧
        Resumes (run (some (m : Int)) patience) D') := by
  obtain ⟨E, hE, rfl⟩ := run_eq_stepLimit h
  refine ⟨fun hseam => ?_, fun hn hm hw => ?_⟩
  · have hsum := steps_seam hE hseam
    have hsecond := steps_second hE (some .stepLimit) m
    cases hm : steps true m E with
    | ok x F =>
      rw [hm] at hsum hsecond
      have hboth := run_limit_of_ok (D := E.withReason (some .stepLimit)) patience hsecond
      rw [run_limit_of_ok patience hsum, hboth]
      exact ⟨fun r G hr => hr, fun f G hf => by contradiction⟩
    | error f F =>
      -- a run that fails leaves the reason remembered before, which the two runs differ in
      have hreason : F.debugger.reason = D.debugger.reason :=
        (ends_steps_reason true (n + m) ⟨D.machine.entered, D.debugger⟩).error (hsum.trans hm)
      rw [hm] at hsum hsecond
      have hboth := run_limit_of_error (D := E.withReason (some .stepLimit)) patience hsecond
      rw [run_limit_of_error patience hsum, hboth]
      refine ⟨fun r G hr => by contradiction, fun g G hr => ?_⟩
      obtain ⟨rfl, rfl⟩ := EStateM.Result.error.inj hr
      have hF : F = F.withReason D.debugger.reason := by rw [← hreason]; rfl
      exact congrArg (EStateM.Result.error f) hF
  · refine ⟨run_limit_of_ok patience (steps_seam_of_waits hE hn hm hw), ?_⟩
    obtain ⟨k, rfl⟩ := Nat.exists_eq_succ_of_ne_zero hn
    have hentered := entered_of_steps hE
    exact run_resumes hentered (ready_of_steps hE).1 hm

/-- A run comes to `r`, and what it leaves passes a test. -/
def comesTo (limit : Int) (r : StopReason) (test : Debugged → Bool) (D : Debugged) : Bool :=
  match run (some limit) 0 D with
  | .ok x E => x = some r && test E
  | .error _ _ => false

theorem comesTo_iff {limit : Int} {r : StopReason} {test : Debugged → Bool} :
    comesTo limit r test D = true ↔
      ∃ E, run (some limit) 0 D = .ok (some r) E ∧ test E = true := by
  unfold comesTo
  cases run (some limit) 0 D with
  | ok x E => simp [and_assoc]
  | error f E => simp

/-- A memory of zeros, where every instruction does nothing. With a breakpoint behind the seam nothing
is to be seen of it; one run stops at a breakpoint at the seam, which the second of two goes through. -/
theorem run_split_blank : ∃ m₀, Machine.create Bus.blank 7 = .ok m₀ ∧
    (∃ D', run (some 1) 0 ⟨m₀, waitingAt 0x204⟩ = .ok (some .stepLimit) D' ∧
      ∀ r E, run (some 1) 0 D' = .ok r E → run (some 2) 0 ⟨m₀, waitingAt 0x204⟩ = .ok r E) ∧
    ∃ D' s q E, run (some 1) 0 ⟨m₀, waitingAt 0x202⟩ = .ok (some .stepLimit) D' ∧
      run (some 2) 0 ⟨m₀, waitingAt 0x202⟩ =
        .ok (some .breakpoint) (D'.withReason (some .breakpoint)) ∧
      D'.machine.step = .ok s q ∧ (∃ d, s.executed = some d ∧ d.address = 0x202) ∧
      run (some 1) 0 D' = .ok (some .stepLimit) E ∧ Behind D' s E := by
  obtain ⟨m₀, h₀, hrun⟩ := Machine.exists_created Bus.blank 7 (fun m₀ =>
    comesTo 1 .stepLimit (fun D' => !D'.debugger.breakpoints.any (·.stopsAt D'.machine.state.pc))
        ⟨m₀, waitingAt 0x204⟩ &&
      comesTo 1 .stepLimit (fun D' => D'.machine.state.pc = 0x202 &&
        D'.debugger.breakpoints.any (·.stopsAt D'.machine.state.pc) &&
        comesTo 1 .stepLimit (fun _ => true) D') ⟨m₀, waitingAt 0x202⟩) (by decide +kernel)
  simp only [Bool.and_eq_true, comesTo_iff, decide_eq_true_eq] at hrun
  obtain ⟨⟨D₁, hfree, hclear⟩, D₂, hseam, ⟨hpc, hwaits⟩, E, hsecond, -⟩ := hrun
  have hclear : ¬ Waits D₁.debugger.breakpoints D₁.machine.state.pc := by
    rw [← Breakpoint.any_stopsAt]
    simpa using hclear
  obtain ⟨hstop, hresumes⟩ := (run_split (n := 1) (m := 1) hseam).2 (by decide) (by decide)
    ((Breakpoint.any_stopsAt _).1 hwaits)
  refine ⟨m₀, h₀, ⟨D₁, hfree, ((run_split (n := 1) (m := 1) hfree).1 (.inr (.inr hclear))).1⟩, ?_⟩
  cases hs : D₂.machine.step with
  | error f q =>
    have hfails : run (some 1) 0 D₂ = .error f ⟨q, D₂.debugger⟩ := hresumes.fails f q hs
    simp [hsecond] at hfails
  | ok s q =>
    obtain ⟨⟨d, hd, haddress⟩, hbehind⟩ := hresumes.executes s q hs
    exact ⟨D₂, s, q, E, hseam, hstop, hs, ⟨d, hd, haddress.trans hpc⟩, hsecond, hbehind.ok hsecond⟩

/-- With the breakpoint one step from the start, the first of two runs ends in front of it and the
second goes ahead, while one run stops there. -/
theorem run_split_waiting : ∃ m₀ D' E E', Machine.create Bus.blank 7 = .ok m₀ ∧
    m₀.trace.hooks = [] ∧
    run (some 1) 0 ⟨m₀, waitingAt 0x202⟩ = .ok (some .stepLimit) D' ∧
    run (some 1) 0 D' = .ok (some .stepLimit) E ∧
    E.machine.state.pc = 0x204 ∧ E.debugger.history.size = 2 ∧
    run (some 2) 0 ⟨m₀, waitingAt 0x202⟩ = .ok (some .breakpoint) E' ∧
    E'.machine.state.pc = 0x202 ∧ E'.debugger.history.size = 1 := by
  let stands (pc : Int) (size : Nat) (E : Debugged) : Bool :=
    E.machine.state.pc = pc && E.debugger.history.size = size
  obtain ⟨m₀, h₀, hrun⟩ := Machine.exists_created Bus.blank 7 (fun m₀ =>
    m₀.trace.hooks.isEmpty &&
      comesTo 1 .stepLimit (comesTo 1 .stepLimit (stands 0x204 2)) ⟨m₀, waitingAt 0x202⟩ &&
      comesTo 2 .breakpoint (stands 0x202 1) ⟨m₀, waitingAt 0x202⟩) (by decide +kernel)
  simp only [stands, Bool.and_eq_true, comesTo_iff, List.isEmpty_iff, decide_eq_true_eq] at hrun
  obtain ⟨⟨hhooks, D', hfirst, E, hsecond, hpc, hsize⟩, E', hone, hpc', hsize'⟩ := hrun
  exact ⟨m₀, D', E, E', h₀, hhooks, hfirst, hsecond, hpc, hsize, hone, hpc', hsize'⟩

end Debugger

end SpriteVM
