import SpriteVM.Proofs.Debugger.Steps
import SpriteVM.Proofs.Machine.Session

namespace SpriteVM

/-- The machine as a run begins: a stop asked for before is forgotten. -/
def Machine.entered (m : Machine) : Machine :=
  { m with trace := { m.trace with stopAsked := false } }

theorem Machine.entered_tame {m : Machine} (hm : m.trace.Tame) : m.entered.Tame := ⟨hm, rfl⟩

/-- After step number `j + 1` there is a reason to stop, and this is the first. -/
def StopsAt (bs : List Breakpoint) (limit : Option Int) (m : Machine) (j : Nat) (r : StopReason) :
    Prop :=
  ∃ p s q, StepAt m j p s q ∧ FirstOf (checks bs limit (j + 1) p.state s q) r

/-- None of the first `j` steps is one to stop after. -/
def GoesTo (bs : List Breakpoint) (limit : Option Int) (m : Machine) (j : Nat) : Prop :=
  ∀ i < j, ∀ r, ¬ StopsAt bs limit m i r

section Checks

variable {bs : List Breakpoint} {limit : Option Int} {k : Nat} {p : State} {s : Snapshot}
  {q : Machine} {r : StopReason}

theorem firstOf_checks :
    FirstOf (checks bs limit k p s q) r ↔
      FirstOf (stepChecks bs p s q) r ∨ (∀ x, ¬ FirstOf (stepChecks bs p s q) x) ∧
        (limit = some (k : Int) ∧ .stepLimit = r ∨
          limit ≠ some (k : Int) ∧ Waits bs q.state.pc ∧ .breakpoint = r) := by
  simp only [checks, firstOf_append, firstOf_cons, not_firstOf_nil, and_false, or_false, ne_eq]

theorem quiet_of_no_check (h : ∀ r, ¬ FirstOf (checks bs limit k p s q) r) :
    Quiet bs p s q ∧ limit ≠ some (k : Int) := by
  have hstep : ∀ r, ¬ FirstOf (stepChecks bs p s q) r := fun r hr => h r (firstOf_checks.2 (.inl hr))
  have hlimit : limit ≠ some (k : Int) := fun hl =>
    h .stepLimit (firstOf_checks.2 (.inr ⟨hstep, .inl ⟨hl, rfl⟩⟩))
  exact ⟨⟨hstep, fun hw => h .breakpoint
    (firstOf_checks.2 (.inr ⟨hstep, .inr ⟨hlimit, hw, rfl⟩⟩))⟩, hlimit⟩

end Checks

namespace GoesTo

variable {bs : List Breakpoint} {limit : Option Int} {m p q : Machine} {s : Snapshot}
  {ss : List Snapshot} {i j : Nat}

theorem quiet (h : GoesTo bs limit m j) (hi : i < j) (hs : StepAt m i p s q) :
    Quiet bs p.state s q ∧ limit ≠ some ((i + 1 : Nat) : Int) :=
  quiet_of_no_check fun r hr => h i hi r ⟨p, s, q, hs, hr⟩

theorem exists_stepAt (hj : stepTimes j m = .ok ss p) (hi : i < j) : ∃ p s q, StepAt m i p s q := by
  induction j generalizing m ss i with
  | zero => omega
  | succ j ih =>
    obtain ⟨s, m', ss', hs, hrest, -⟩ := stepTimes_succ.1 hj
    cases i with
    | zero => exact ⟨m, s, m', stepAt_zero.2 ⟨rfl, hs⟩⟩
    | succ i =>
      obtain ⟨p, s', q, h⟩ := ih hrest (Nat.lt_of_succ_lt_succ hi)
      exact ⟨p, s', q, h.succ hs⟩

/-- A run that gets through as many steps has not reached its limit. -/
theorem lt_limit {n : Int} (h : GoesTo bs (some n) m j) (hj : stepTimes j m = .ok ss p)
    (hn : 0 < n) : (j : Int) < n := by
  by_cases hlt : (j : Int) < n
  · exact hlt
  · have hi : n.toNat - 1 < j := by omega
    obtain ⟨p', s, q, hs⟩ := exists_stepAt hj hi
    have hne := (h.quiet hi hs).2
    exact absurd (congrArg some (by omega)) hne

end GoesTo

namespace Debugger

variable {D : Debugged} {limit : Option Int} {patience : Nat} {m p q : Machine} {s : Snapshot}
  {ss : List Snapshot} {j n : Nat} {r : StopReason}

def fuel (limit : Option Int) (patience : Nat) : Nat :=
  match limit with
  | some n => n.toNat
  | none => patience

/-- The answer of a run whose steps ended with this one. -/
def answer (limit : Option Int) (r : Option StopReason) : Option StopReason :=
  match limit with
  | some _ => some (r.getD .stepLimit)
  | none => r

@[simp] theorem answer_some (limit : Option Int) (r : StopReason) :
    answer limit (some r) = some r := by cases limit <;> rfl

theorem run_of_ok {r : Option StopReason} {d : Debugger}
    (h : steps true (fuel limit patience) ⟨D.machine.entered, D.debugger⟩ = .ok r ⟨q, d⟩) :
    run limit patience D =
      .ok (answer limit r) ⟨q, { d with reason := (answer limit r).or d.reason }⟩ := by
  have henter : onMachine (Machine.onTrace (modify fun t => { t with stopAsked := false })) D =
      .ok () ⟨D.machine.entered, D.debugger⟩ := rfl
  rw [run, bind_of_ok henter]
  cases limit with
  | none => exact bind_of_ok h
  | some n => exact bind_of_ok (map_of_ok _ h)

theorem run_of_error {f : Fault} {D' : Debugged}
    (h : steps true (fuel limit patience) ⟨D.machine.entered, D.debugger⟩ = .error f D') :
    run limit patience D = .error f D' := by
  have henter : onMachine (Machine.onTrace (modify fun t => { t with stopAsked := false })) D =
      .ok () ⟨D.machine.entered, D.debugger⟩ := rfl
  rw [run, bind_of_ok henter]
  cases limit with
  | none => exact bind_of_error h
  | some n => exact bind_of_error (map_of_error _ h)

theorem run_of_nonpos {n : Int} (hn : n ≤ 0) :
    run (some n) patience D =
      .ok (some .stepLimit) ⟨D.machine.entered, { D.debugger with reason := some .stepLimit }⟩ := by
  have hfuel : fuel (some n) patience = 0 := Int.toNat_of_nonpos hn
  exact run_of_ok (r := none) (by rw [hfuel]; rfl)

theorem exists_fuel {bs : List Breakpoint} (hpos : ∀ n, limit = some n → 0 < n)
    (hpat : limit = none → j < patience) (hgo : GoesTo bs limit m j)
    (hj : stepTimes j m = .ok ss p) : ∃ n, fuel limit patience = j + (n + 1) := by
  suffices h : j < fuel limit patience from ⟨fuel limit patience - j - 1, by omega⟩
  cases limit with
  | none => exact hpat rfl
  | some n =>
    have hlt := hgo.lt_limit hj (hpos n rfl)
    unfold fuel
    dsimp only
    omega

/-- A step that the limit forbids to follow is the last one there is room for. -/
theorem room_of_limit (hn : fuel limit patience = j + (n + 1)) (hl : limit = some ((j + 1 : Nat) : Int)) :
    n = 0 := by
  unfold fuel at hn
  subst hl
  dsimp only at hn
  omega

theorem room_of_no_limit (hn : fuel limit patience = j + (n + 1))
    (hpat : limit = none → j + 1 < patience) (hl : limit ≠ some ((j + 1 : Nat) : Int)) :
    ∃ k, n = k + 1 := by
  suffices h : n ≠ 0 from Nat.exists_eq_succ_of_ne_zero h
  rintro rfl
  unfold fuel at hn
  cases limit with
  | none =>
    have := hpat rfl
    dsimp only at hn
    omega
  | some l =>
    dsimp only at hn
    exact hl (congrArg some (by omega))

theorem run_of_stopsAt (hD : D.machine.trace.Tame) (hpos : ∀ n, limit = some n → 0 < n)
    (hpat : limit = none → j + 1 < patience)
    (hgo : GoesTo D.debugger.breakpoints limit D.machine.entered j)
    (hstop : StopsAt D.debugger.breakpoints limit D.machine.entered j r) :
    ∃ ss q, stepTimes (j + 1) D.machine.entered = .ok ss q ∧ ss.length = j + 1 ∧
      run limit patience D = .ok (some r) ⟨q, { D.debugger.record ss with reason := some r }⟩ := by
  obtain ⟨p, s, q, ⟨⟨ss, hj⟩, hs⟩, hfirst⟩ := hstop
  have hsteps := stepTimes_snoc hj hs
  refine ⟨ss ++ [s], q, hsteps, length_stepTimes hsteps, ?_⟩
  obtain ⟨n, hn⟩ := exists_fuel hpos (fun h => Nat.lt_of_succ_lt (hpat h)) hgo hj
  have hp := (Machine.entered_tame hD).stepTimes hj
  have hquiet := steps_of_quiet (n := n + 1) (d := D.debugger) (Machine.entered_tame hD) hj
    fun i hi _ _ _ h => (hgo.quiet hi h).1
  rw [← hn] at hquiet
  rw [record_append]
  rw [firstOf_checks] at hfirst
  obtain hfirst | ⟨hnone, hlast⟩ := hfirst
  · rw [steps_of_stop hp hs hfirst] at hquiet
    rw [run_of_ok hquiet, answer_some]
    rfl
  · rw [steps_of_go hp hs hnone] at hquiet
    obtain ⟨hl, rfl⟩ | ⟨hne, hw, rfl⟩ := hlast
    · obtain rfl := room_of_limit hn hl
      rw [run_of_ok hquiet, hl]
      rfl
    · -- the breakpoint is found before a further step, so there has to be room for one
      obtain ⟨k, rfl⟩ := room_of_no_limit hn hpat hne
      rw [steps_false_of_waits hw] at hquiet
      rw [run_of_ok hquiet, answer_some]
      rfl

theorem run_of_fault {f : Fault} (hD : D.machine.trace.Tame)
    (hpos : ∀ n, limit = some n → 0 < n) (hpat : limit = none → j < patience)
    (hgo : GoesTo D.debugger.breakpoints limit D.machine.entered j)
    (hj : stepTimes j D.machine.entered = .ok ss p) (hs : p.step = .error f q) :
    run limit patience D = .error f ⟨q, D.debugger.record ss⟩ := by
  obtain ⟨n, hn⟩ := exists_fuel hpos hpat hgo hj
  have hquiet := steps_of_quiet (n := n + 1) (d := D.debugger) (Machine.entered_tame hD) hj
    fun i hi _ _ _ h => (hgo.quiet hi h).1
  rw [← hn, steps_of_error hs] at hquiet
  exact run_of_error hquiet

end Debugger

/-- Step number `j + 1` is one to stop after, or fails. -/
def EndsAt (bs : List Breakpoint) (limit : Option Int) (m : Machine) (j : Nat) : Prop :=
  (∃ r, StopsAt bs limit m j r) ∨
    ∃ ss p f q, stepTimes j m = .ok ss p ∧ p.step = .error f q

/-- As long as no step ends the run, it goes on. -/
theorem goesTo_or_endsAt (bs : List Breakpoint) (limit : Option Int) (m : Machine) (k : Nat) :
    (∃ ss p, stepTimes k m = .ok ss p ∧ GoesTo bs limit m k) ∨
      ∃ j < k, GoesTo bs limit m j ∧ EndsAt bs limit m j := by
  induction k with
  | zero => exact .inl ⟨[], m, stepTimes_zero.2 ⟨rfl, rfl⟩, fun i hi => absurd hi (Nat.not_lt_zero i)⟩
  | succ k ih =>
    obtain ⟨ss, p, hk, hgo⟩ | ⟨j, hj, hend⟩ := ih
    · by_cases hend : EndsAt bs limit m k
      · exact .inr ⟨k, Nat.lt_succ_self k, hgo, hend⟩
      · refine .inl ?_
        cases hs : p.step with
        | error f q => exact absurd (.inr ⟨ss, p, f, q, hk, hs⟩) hend
        | ok s q =>
          refine ⟨ss ++ [s], q, stepTimes_snoc hk hs, fun i hi r hr => ?_⟩
          obtain hi | rfl := Nat.lt_succ_iff_lt_or_eq.1 hi
          · exact hgo i hi r hr
          · exact hend (.inl ⟨r, hr⟩)
    · exact .inr ⟨j, Nat.lt_succ_of_lt hj, hend⟩

theorem exists_endsAt (bs : List Breakpoint) (m : Machine) {n : Nat} (hn : 0 < n) :
    ∃ j < n, GoesTo bs (some n) m j ∧ EndsAt bs (some n) m j := by
  obtain ⟨ss, p, hk, hgo⟩ | h := goesTo_or_endsAt bs (some n) m n
  · exact absurd (hgo.lt_limit hk (by omega)) (by omega)
  · exact h

namespace Debugger

/-- A run takes steps up to the first after which there is a reason to stop, or which fails; with a
limit it always comes to that. -/
theorem run_first_stop (D : Debugged) (limit : Option Int) (patience : Nat)
    (hD : D.machine.trace.Tame) :
    let m := D.machine.entered
    let bs := D.debugger.breakpoints
    (∀ n ≤ 0, limit = some n →
      run limit patience D = .ok (some .stepLimit) ⟨m, { D.debugger with reason := some .stepLimit }⟩) ∧
    ((∀ n, limit = some n → 0 < n) → ∀ j, GoesTo bs limit m j →
      (∀ r, StopsAt bs limit m j r → (limit = none → j + 1 < patience) →
        ∃ ss q, stepTimes (j + 1) m = .ok ss q ∧ ss.length = j + 1 ∧
          run limit patience D = .ok (some r) ⟨q, { D.debugger.record ss with reason := some r }⟩) ∧
      ∀ ss p f q, stepTimes j m = .ok ss p → p.step = .error f q → (limit = none → j < patience) →
        run limit patience D = .error f ⟨q, D.debugger.record ss⟩) ∧
    ∀ n : Nat, limit = some (n : Int) → 0 < n →
      ∃ j < n, GoesTo bs limit m j ∧ EndsAt bs limit m j := by
  refine ⟨?_, fun hpos j hgo => ⟨fun r hr hpat => ?_, fun ss p f q hj hs hpat => ?_⟩, ?_⟩
  · rintro n hn rfl
    exact run_of_nonpos hn
  · exact run_of_stopsAt hD hpos hpat hgo hr
  · exact run_of_fault hD hpos hpat hgo hj hs
  · rintro n rfl hn
    exact exists_endsAt _ _ hn

def waitingAt (pc : Int) : Debugger :=
  { fresh with breakpoints := [⟨.counter, some pc, none, none, true⟩] }

theorem waits_waitingAt (pc : Int) : Waits (waitingAt pc).breakpoints pc :=
  ⟨_, List.mem_singleton_self _, rfl, rfl, rfl⟩

theorem not_hit_waitingAt (pc : Int) (s : Snapshot) (before after : State) :
    ¬ Hit (waitingAt pc).breakpoints s before after := by
  rintro ⟨b, hmem, -, h⟩
  obtain rfl := List.mem_singleton.1 hmem
  cases h with
  | read hk | write hk | value hk | change hk => exact nomatch hk

/-- In a memory of zeros, where every instruction does nothing, a breakpoint waits behind the first. -/
theorem run_first_stop_blank : ∃ m₀, Machine.create Bus.blank 7 = .ok m₀ ∧ m₀.trace.Tame ∧
    ∃ ss q, stepTimes 1 m₀.entered = .ok ss q ∧ ss.length = 1 ∧
      run (some 2) 0 ⟨m₀, waitingAt 0x202⟩ =
        .ok (some .breakpoint) ⟨q, { (waitingAt 0x202).record ss with reason := some .breakpoint }⟩ := by
  obtain ⟨m₀, h₀, hrun⟩ := Machine.exists_created Bus.blank 7 (fun m₀ =>
    m₀.trace.hooks.isEmpty && match m₀.entered.step with
      | .ok _ q => !q.state.halted && !q.state.quit && !q.state.blocking && q.state.pc = 0x202
      | .error _ _ => false) (by decide +kernel)
  simp only [Bool.and_eq_true, List.isEmpty_iff] at hrun
  obtain ⟨hhooks, hrun⟩ := hrun
  have htame : m₀.trace.Tame := by simp [Trace.Tame, hhooks]
  cases hs : m₀.entered.step with
  | error f q => simp [hs] at hrun
  | ok s q =>
    simp only [hs, Bool.and_eq_true, Bool.not_eq_true', decide_eq_true_eq] at hrun
    obtain ⟨⟨⟨hh, hq⟩, hb⟩, hpc⟩ := hrun
    have hstop : StopsAt (waitingAt 0x202).breakpoints (some 2) m₀.entered 0 .breakpoint :=
      ⟨m₀.entered, s, q, stepAt_zero.2 ⟨rfl, hs⟩, .later (by simp [hh]) <| .later (by simp [hq]) <|
        .later (by simp [hb]) <| .later (not_hit_waitingAt _ _ _ _) <| .later (by simp) <|
          .here (hpc ▸ waits_waitingAt 0x202)⟩
    exact ⟨m₀, h₀, htame, ((run_first_stop ⟨m₀, waitingAt 0x202⟩ (some 2) 0 htame).2.1 (by simp) 0
      nofun).1 _ hstop nofun⟩

end Debugger

end SpriteVM
