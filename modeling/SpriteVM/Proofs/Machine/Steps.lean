import SpriteVM.Proofs.Machine.Outcome

namespace SpriteVM

/-- As many steps of the machine, and what each of them reported. -/
def stepTimes : Nat → Action (List Snapshot)
  | 0 => return []
  | k + 1 => do
    let s ← Machine.step
    let ss ← stepTimes k
    return s :: ss

variable {m p q : Machine} {s : Snapshot} {ss : List Snapshot} {j k : Nat}

theorem stepTimes_zero : stepTimes 0 m = .ok ss q ↔ ss = [] ∧ m = q := by
  change EStateM.Result.ok [] m = .ok ss q ↔ _
  simp [eq_comm]

theorem stepTimes_succ :
    stepTimes (k + 1) m = .ok ss q ↔
      ∃ s m' ss', m.step = .ok s m' ∧ stepTimes k m' = .ok ss' q ∧ ss = s :: ss' := by
  simp only [stepTimes, bind_eq_ok]
  constructor
  · rintro ⟨s, m', hs, ss', t, hk, he⟩
    obtain ⟨rfl, rfl⟩ := EStateM.Result.ok.inj he
    exact ⟨s, m', ss', hs, hk, rfl⟩
  · rintro ⟨s, m', ss', hs, hk, rfl⟩
    exact ⟨s, m', hs, ss', q, hk, rfl⟩

theorem stepTimes_snoc (h : stepTimes k m = .ok ss p) (hs : p.step = .ok s q) :
    stepTimes (k + 1) m = .ok (ss ++ [s]) q := by
  induction k generalizing m ss with
  | zero =>
    obtain ⟨rfl, rfl⟩ := stepTimes_zero.1 h
    exact stepTimes_succ.2 ⟨s, q, [], hs, stepTimes_zero.2 ⟨rfl, rfl⟩, rfl⟩
  | succ k ih =>
    obtain ⟨s₀, m', ss', hm, hk, rfl⟩ := stepTimes_succ.1 h
    exact stepTimes_succ.2 ⟨s₀, m', ss' ++ [s], hm, ih hk, rfl⟩

theorem length_stepTimes (h : stepTimes k m = .ok ss p) : ss.length = k := by
  induction k generalizing m ss with
  | zero =>
    obtain ⟨rfl, -⟩ := stepTimes_zero.1 h
    rfl
  | succ k ih =>
    obtain ⟨s₀, m', ss', -, hk, rfl⟩ := stepTimes_succ.1 h
    rw [List.length_cons, ih hk]

/-- The step after `j` steps goes from `p` to `q` and reports `s`. -/
def StepAt (m : Machine) (j : Nat) (p : Machine) (s : Snapshot) (q : Machine) : Prop :=
  (∃ ss, stepTimes j m = .ok ss p) ∧ p.step = .ok s q

theorem stepAt_zero : StepAt m 0 p s q ↔ m = p ∧ p.step = .ok s q := by
  simp [StepAt, stepTimes_zero]

theorem StepAt.succ {m' : Machine} {s₀ : Snapshot} (hm : m.step = .ok s₀ m')
    (h : StepAt m' j p s q) : StepAt m (j + 1) p s q := by
  obtain ⟨⟨ss, hj⟩, hs⟩ := h
  exact ⟨⟨s₀ :: ss, stepTimes_succ.2 ⟨s₀, m', ss, hm, hj, rfl⟩⟩, hs⟩

namespace Machine

variable {t u : Machine} {ss' : List Snapshot}

/-- From `m` to `t` these instructions were executed: they are what the journal has more, and each of
them was counted. -/
structure Advances (m : Machine) (ss : List Snapshot) (t : Machine) : Prop where
  journal : t.trace.journal.toList = m.trace.journal.toList ++ ss
  cycles : t.cycles = m.cycles + ss.length
  executed : ∀ s ∈ ss, s.executed.isSome = true

namespace Advances

theorem of_same (htrace : t.trace = m.trace) (hcycles : t.cycles = m.cycles) : m.Advances [] t :=
  ⟨by simp [htrace], by simp [hcycles], by simp⟩

theorem refl (m : Machine) : m.Advances [] m := of_same rfl rfl

theorem trans (h : m.Advances ss t) (h' : t.Advances ss' u) : m.Advances (ss ++ ss') u where
  journal := by rw [h'.journal, h.journal, List.append_assoc]
  cycles := by
    have hc := h.cycles
    have hc' := h'.cycles
    rw [List.length_append]
    omega
  executed := by
    intro s hs
    rcases List.mem_append.1 hs with hs | hs
    · exact h.executed s hs
    · exact h'.executed s hs

end Advances

/-- What was executed since: what the journal has more. -/
def since (m t : Machine) : List Snapshot := t.trace.journal.toList.drop m.trace.journal.toList.length

theorem since_self (h : t.trace.journal = m.trace.journal) : m.since t = [] := by
  rw [since, h, List.drop_length]

theorem since_told (h : t.trace.journal = m.trace.journal.push s) : m.since t = [s] := by
  rw [since, h, Array.toList_push, List.drop_left]

theorem Advances.since_eq (h : m.Advances ss t) : m.since t = ss := by
  rw [since, h.journal, List.drop_left]

theorem advances_of_told {d : Instruction} {c : Core}
    (hj : t.trace.journal = m.trace.journal.push (m.report d c)) (hc : t.cycles = m.cycles + 1) :
    m.Advances [m.report d c] t where
  journal := by rw [hj, Array.toList_push]
  cycles := hc
  executed := by
    intro s hs
    rw [List.mem_singleton.1 hs]
    rfl

/-- What a cycle executes: the instruction it reports, and at most one if it fails. -/
theorem step_advances (m : Machine) :
    Ends step (fun s t => m.Advances ([s].filter (·.executed.isSome)) t)
      (fun _ t => ∃ ss, ss.length ≤ 1 ∧ m.Advances ss t) m := by
  have ho := step_outcome m
  refine Ends.of_forall (fun s t hs => ?_) fun f t hs => ?_
  · rw [hs] at ho
    cases ho with
    | waiting => exact Advances.refl m
    | @done _ _ d b c trace hr he hn =>
      have hjournal := (Trace.notify_told (m.report d c) m.trace).ok hn
      have hfilter : [m.report d c].filter (·.executed.isSome) = [m.report d c] :=
        List.filter_cons_of_pos rfl
      rw [hfilter]
      exact advances_of_told hjournal rfl
  · rw [hs] at ho
    cases ho with
    | stopped => exact ⟨[], by simp, Advances.refl _⟩
    | counter | unreadable | failed => exact ⟨[], by simp, Advances.of_same rfl rfl⟩
    | @hookFailed _ _ d b c f trace hr he hn =>
      have hjournal := ((Trace.notify_told (m.report d c) m.trace).error hn).1
      exact ⟨[m.report d c], by simp, advances_of_told hjournal rfl⟩

theorem Active.executed (ha : m.Active) (hs : m.step = .ok s t) : s.executed.isSome = true := by
  cases he : s.executed with
  | none =>
    have hb := (step_eq_waiting hs he).2
    rw [ha.2] at hb
    contradiction
  | some d => rfl

/-- Cycles in a row that execute an instruction each. -/
def Executes (m : Machine) (ss : List Snapshot) (t : Machine) : Prop :=
  stepTimes ss.length m = .ok ss t ∧ ∀ s ∈ ss, s.executed.isSome = true

theorem executes_nil : m.Executes [] t ↔ m = t := by
  simp [Executes, stepTimes_zero]

theorem executes_cons :
    m.Executes (s :: ss) t ↔
      s.executed.isSome = true ∧ ∃ u, m.step = .ok s u ∧ u.Executes ss t := by
  simp only [Executes, List.length_cons, stepTimes_succ, List.forall_mem_cons]
  constructor
  · rintro ⟨⟨s', u, ss', hs, hss, he⟩, hex, hall⟩
    obtain ⟨rfl, rfl⟩ := List.cons.inj he
    exact ⟨hex, u, hs, hss, hall⟩
  · rintro ⟨hex, u, hs, hss, hall⟩
    exact ⟨⟨s, u, ss, hs, hss, rfl⟩, hex, hall⟩

theorem Executes.advances (h : m.Executes ss t) : m.Advances ss t := by
  induction ss generalizing m with
  | nil =>
    obtain rfl := executes_nil.1 h
    exact Advances.refl m
  | cons s ss ih =>
    obtain ⟨hex, u, hs, hrest⟩ := executes_cons.1 h
    have hstep := (step_advances m).ok hs
    have hfilter : [s].filter (·.executed.isSome) = [s] := List.filter_cons_of_pos hex
    rw [hfilter] at hstep
    exact hstep.trans (ih hrest)

end Machine

end SpriteVM
