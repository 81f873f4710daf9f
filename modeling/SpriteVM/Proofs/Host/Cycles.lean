import SpriteVM.Proofs.Host.Ledger

namespace SpriteVM

namespace Machine

variable {m t u x : Machine} {xs ys : List Machine}

/-- The instruction that the cycle begun in `x` executes, also if a hook fails on it. There is none if
the machine waits, or if the cycle fails before. -/
def cycled (x : Machine) : Option Instruction := (x.since (left x.step)).head?.bind (·.executed)

/-- A cycle executes an instruction, which may have a hook fail on it, or leaves the state as it was,
or leaves what an instruction did that failed. -/
inductive CycleEnd (x : Machine) : Prop
  | executed {d : Instruction} {b : Bus} {c : Core} (he : Core.execute d ⟨x.state, b⟩ = .ok () c)
    (hd : x.cycled = some d) (ht : (left x.step).state = c.state)
  | unchanged (hd : x.cycled = none) (ht : (left x.step).state = x.state)
  | failed {d : Instruction} {b : Bus} {f : Fault} {c : Core}
    (he : Core.execute d ⟨x.state, b⟩ = .error f c) (hd : x.cycled = none)
    (ht : (left x.step).state = c.state)

theorem cycle_end (x : Machine) : CycleEnd x := by
  have ho := step_outcome x
  have hnone {t : Machine} (ht : left x.step = t) (h : t.trace.journal = x.trace.journal) :
      x.cycled = none := by
    rw [cycled, ht, since_self h]
    rfl
  have hsome {t : Machine} {d : Instruction} {c : Core} (ht : left x.step = t)
      (h : t.trace.journal = x.trace.journal.push (x.report d c)) : x.cycled = some d := by
    rw [cycled, ht, since_told h]
    rfl
  generalize hr : x.step = r at ho
  cases ho with
  | stopped | waiting | counter | unreadable =>
    exact .unchanged (hnone (congrArg left hr) rfl) (by rw [hr]; rfl)
  | failed _ _ _ he =>
    exact .failed he (hnone (congrArg left hr) rfl) (by rw [hr]; rfl)
  | hookFailed _ _ _ he hn =>
    have htold := ((Trace.notify_told _ _).error hn).1
    exact .executed he (hsome (congrArg left hr) htold) (by rw [hr]; rfl)
  | done _ _ _ he hn =>
    have htold := (Trace.notify_told _ _).ok hn
    exact .executed he (hsome (congrArg left hr) htold) (by rw [hr]; rfl)

/-- A cycle counts its instruction, and the journal has it. -/
theorem cycle_advances (x : Machine) :
    x.Advances (x.since (left x.step)) (left x.step) ∧
      (x.since (left x.step)).filterMap (·.executed) = x.cycled.toList := by
  obtain ⟨ss, hle, hss⟩ : ∃ ss, ss.length ≤ 1 ∧ x.Advances ss (left x.step) := by
    have h := x.step_advances
    cases hs : x.step with
    | ok s t =>
      refine ⟨_, ?_, h.ok hs⟩
      exact List.length_filter_le _ _
    | error f t => exact h.error hs
  rw [cycled, hss.since_eq]
  refine ⟨hss, ?_⟩
  cases ss with
  | nil => rfl
  | cons s ss =>
    obtain rfl := List.eq_nil_of_length_eq_zero (Nat.le_zero.1 (Nat.le_of_succ_le_succ hle))
    obtain ⟨d, hd⟩ := Option.isSome_iff_exists.1 (hss.executed s List.mem_cons_self)
    simp [hd]

theorem left_step_seed (x : Machine) : (left x.step).seed = x.seed := by
  have ho := step_outcome x
  generalize x.step = r at ho
  cases ho <;> rfl

/-- No cycle was gone through, and no random byte was drawn. -/
structure Idles (m t : Machine) : Prop where
  seed : t.seed = m.seed
  cycles : t.cycles = m.cycles
  journal : t.trace.journal = m.trace.journal
  random : t.state.random = m.state.random

theorem Idles.refl (m : Machine) : Idles m m := ⟨rfl, rfl, rfl, rfl⟩

/-- From `m` to `t` the cycles that begin in these machines were gone through, and no other. -/
inductive Through : Machine → List Machine → Machine → Prop
  | idle {m t : Machine} (h : Idles m t) : Through m [] t
  | cycle (m : Machine) : Through m [m] (left m.step)
  | trans {m t u : Machine} {xs ys : List Machine} (h : Through m xs t) (h' : Through t ys u) :
    Through m (xs ++ ys) u

namespace Through

theorem refl (m : Machine) : Through m [] m := idle (Idles.refl m)

theorem then_idle (h : Through m xs t) (h' : Idles t u) : Through m xs u := by
  have hboth := h.trans (idle h')
  rwa [List.append_nil] at hboth

theorem seed (h : Through m xs t) : t.seed = m.seed := by
  induction h with
  | idle h => exact h.seed
  | cycle m => exact left_step_seed m
  | trans _ _ ih ih' => exact ih'.trans ih

theorem advances (h : Through m xs t) :
    ∃ ss, m.Advances ss t ∧ ss.filterMap (·.executed) = xs.filterMap cycled := by
  induction h with
  | @idle m t h => exact ⟨[], ⟨by simp [h.journal], h.cycles, by simp⟩, rfl⟩
  | cycle m =>
    obtain ⟨hss, he⟩ := m.cycle_advances
    refine ⟨_, hss, he.trans ?_⟩
    cases hd : m.cycled <;> simp [hd]
  | trans _ _ ih ih' =>
    obtain ⟨ss, hss, he⟩ := ih
    obtain ⟨ss', hss', he'⟩ := ih'
    exact ⟨ss ++ ss', hss.trans hss', by rw [List.filterMap_append, List.filterMap_append, he, he']⟩

/-- The count of cycles grows by the instructions executed. -/
theorem cycles_eq (h : Through m xs t) : t.cycles = m.cycles + (xs.filterMap cycled).length := by
  obtain ⟨ss, hss, he⟩ := h.advances
  have hsome : (ss.filterMap (·.executed)).length = ss.length := by
    rw [List.filterMap_length_eq_length]
    exact hss.executed
  rw [hss.cycles, ← he, hsome]

end Through

end Machine

open Machine (Through Idles)

namespace Host

variable {h t : Hosted} {n : Nat} {last : Option Frame}

/-- The machines in which the cycles of a burst begin. -/
def burstStarts : Nat → Machine → List Machine
  | 0, _ => []
  | n + 1, m =>
    if m.state.terminal || m.state.blocking then []
    else m :: match m.step with
      | .ok _ t => burstStarts n t
      | .error _ _ => []

/-- The machines in which the cycles of a frame begin; a frame that finds the machine waiting has
none. -/
def frameStarts (h : Hosted) : List Machine :=
  if h.machine.state.blocking then [] else burstStarts h.host.cyclesPerFrame h.machine

theorem burst_through (n done : Nat) (m : Machine) :
    Through m (burstStarts n m) (left (burst n done m)) := by
  induction n generalizing done m with
  | zero => exact Through.refl m
  | succ n ih =>
    rw [burstStarts]
    cases hstop : m.state.terminal || m.state.blocking with
    | true =>
      rw [burst, bind_of_ok (Machine.inspect_of hstop)]
      exact Through.refl m
    | false =>
      have ha : m.Active := by simpa [Machine.Active] using hstop
      have hfirst := Through.cycle m
      rw [burst_of_active ha]
      cases hs : m.step with
      | ok s u =>
        rw [hs] at hfirst
        exact hfirst.trans (ih (done + 1) u)
      | error f u =>
        rw [hs] at hfirst
        exact hfirst

theorem closed_idles (u : Machine) : Idles u u.closed := ⟨rfl, rfl, rfl, rfl⟩

theorem resolveKey_idles (m : Machine) : Idles m (left m.resolveKey) := by
  cases hr : m.resolveKey with
  | ok got u =>
    obtain ⟨v, b, rfl⟩ := Machine.resolveKey_rest hr
    exact ⟨rfl, rfl, rfl, rfl⟩
  | error f u =>
    rw [Machine.resolveKey_error hr]
    exact ⟨rfl, rfl, rfl, rfl⟩

theorem frame_through (h : Hosted) :
    Through h.machine (frameStarts h) (left (runFrame h)).machine := by
  have hturn : Through h.machine (frameStarts h)
      (left (frameCycles h.host.cyclesPerFrame h.machine)) := by
    unfold frameStarts
    cases hb : h.machine.state.blocking with
    | true =>
      rw [frameCycles_of_blocking hb, left_map]
      exact .idle (resolveKey_idles h.machine)
    | false =>
      rw [frameCycles_of_running hb]
      exact burst_through _ 0 _
  cases hk : frameCycles h.host.cyclesPerFrame h.machine with
  | ok k u =>
    rw [hk] at hturn
    rw [runFrame_of_ok hk]
    exact hturn.then_idle (closed_idles u)
  | error f u =>
    rw [hk] at hturn
    rw [runFrame_of_error hk]
    exact hturn

theorem RunOutcome.through {xs : List Hosted} {r : EStateM.Result Fault Hosted (Option Frame × Bool)}
    (ho : RunOutcome n last h xs r) :
    Through h.machine (xs.flatMap frameStarts) (left r).machine := by
  induction ho with
  | spent | stopped => exact Through.refl _
  | @broken n last h t f _ hr =>
    have hframe := frame_through h
    rw [hr] at hframe
    rwa [List.flatMap_singleton]
  | @rests n last h t frame _ hr =>
    have hframe := frame_through h
    rw [hr] at hframe
    rwa [List.flatMap_singleton]
  | @goes n last h t frame xs r _ hr _ _ ih =>
    have hframe := frame_through h
    rw [hr] at hframe
    exact hframe.trans ih

end Host

namespace HostCall

/-- The machines in which the cycles of a call begin. -/
def starts (c : HostCall) (h : Hosted) : List Machine := (c.frames h).flatMap Host.frameStarts

theorem act_through (c : HostCall) (h : Hosted) :
    Through h.machine (c.starts h) (left (c.act h)).machine := by
  have hkey (key : Int) (down : Bool) :
      Through h.machine [] (left (Host.onMachine (Machine.setKey key down) h)).machine := by
    rw [Host.onMachine_left]
    refine .idle ?_
    unfold Machine.setKey
    split <;> exact ⟨rfl, rfl, rfl, rfl⟩
  cases c with
  | press key => exact hkey key true
  | release key => exact hkey key false
  | frame =>
    rw [act, left_map, starts, frames, List.flatMap_singleton]
    exact Host.frame_through h
  | run limit patience =>
    rw [act, left_map, Host.run_eq, left_map]
    exact (Host.runFrames_outcome _ _ h).through

end HostCall

end SpriteVM
