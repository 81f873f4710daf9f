import SpriteVM.Proofs.Machine.CoreAction
import SpriteVM.Proofs.Machine.Round
import SpriteVM.Proofs.Machine.Steps

namespace SpriteVM

namespace Machine

variable {m t u : Machine} {d : Instruction} {c : Core} {name : String} {ss ss' : List Snapshot}

/-- The next cycle gets through this instruction, which leaves this state and bus. -/
def Completes (m : Machine) (d : Instruction) (c : Core) : Prop :=
  m.Active ∧ m.state.Fetchable ∧ ∃ b, readInstruction m.state.pc m.cleared.bus = .ok d b ∧
    Core.execute d ⟨m.state, b⟩ = .ok () c

/-- The next cycle leaves what the instruction did, counted and with nothing but the trace changed by
the hooks. They were called on its report, each once, and the cycle fails as the last of them. -/
structure Delivers (m : Machine) (d : Instruction) (c : Core) : Prop where
  effect : left m.step = { m.executed c with fetched := some d, trace := (left m.step).trace }
  calls : (left m.step).trace.calls.toList =
    m.trace.calls.toList ++ m.trace.called.map fun h => ⟨h.name, m.report d c⟩
  once : (m.trace.called.map (·.name)).Nodup
  outcome : m.step = match m.trace.failure? with
    | none => .ok (m.report d c) (left m.step)
    | some message => .error (.hook message) (left m.step)

/-- How the round of a completed cycle ends. -/
theorem Completes.notified (h : m.Completes d c) :
    Ends (Trace.notify (m.report d c))
      (fun _ trace => m.step = .ok (m.report d c) { m.executed c with fetched := some d, trace := trace })
      (fun f trace => m.step = .error f { m.executed c with fetched := some d, trace := trace })
      m.trace := by
  obtain ⟨ha, hp, b, hr, he⟩ := h
  exact Ends.of_forall (fun _ _ hn => (CycleOutcome.done ha hp hr he hn).step_eq)
    fun _ _ hn => (CycleOutcome.hookFailed ha hp hr he hn).step_eq

theorem Completes.told (h : m.Completes d c) :
    Trace.Told (m.report d c) m.trace.called m.trace (left m.step).trace ∧
      (left m.step).trace.journal = m.trace.journal.push (m.report d c) := by
  have hround := h.notified.and ((Trace.notify_tells (m.report d c) m.trace).and
    (Trace.notify_told (m.report d c) m.trace))
  cases hn : Trace.notify (m.report d c) m.trace with
  | ok _ trace =>
    obtain ⟨hstep, ⟨-, htold⟩, hjournal⟩ := hround.ok hn
    rw [hstep]
    exact ⟨htold, hjournal⟩
  | error f trace =>
    obtain ⟨hstep, ⟨-, htold⟩, hjournal, -⟩ := hround.error hn
    rw [hstep]
    exact ⟨htold, hjournal⟩

theorem Completes.left_eq (h : m.Completes d c) :
    left m.step = { m.executed c with fetched := some d, trace := (left m.step).trace } := by
  obtain ⟨ha, hp, b, hr, he⟩ := h
  obtain ⟨trace, hleft⟩ := left_step_of_execute_ok ha hp hr he
  rw [hleft]

theorem Completes.outcome (h : m.Completes d c) : m.step = match m.trace.failure? with
    | none => .ok (m.report d c) (left m.step)
    | some message => .error (.hook message) (left m.step) := by
  have hround := h.notified.and (Trace.notify_tells (m.report d c) m.trace)
  cases hn : Trace.notify (m.report d c) m.trace with
  | ok _ trace =>
    obtain ⟨hstep, hnone, -⟩ := hround.ok hn
    rw [hstep, hnone]
    rfl
  | error f trace =>
    obtain ⟨hstep, ⟨message, hsome, rfl⟩, -⟩ := hround.error hn
    rw [hstep, hsome]
    rfl

theorem Completes.delivers (h : m.Completes d c) (hm : m.trace.Distinct) : m.Delivers d c :=
  ⟨h.left_eq, h.told.1.calls, hm.nodup_called, h.outcome⟩

/-- A cycle that is refused, waits or fails before its instruction is done is not told to anyone. -/
theorem step_untold (h : ∀ d c, ¬ m.Completes d c) :
    (left m.step).trace = m.trace ∧ (left m.step).cycles = m.cycles := by
  have ho := step_outcome m
  generalize m.step = r at ho
  cases ho with
  | stopped | waiting | counter | unreadable | failed => exact ⟨rfl, rfl⟩
  | hookFailed ha hp hr he | done ha hp hr he => exact absurd ⟨ha, hp, _, hr, he⟩ (h _ _)

/-- From `m` to `t` these instructions were executed, and the hook of this name was called on each of them
in their order and on nothing else. -/
structure Hears (name : String) (m : Machine) (ss : List Snapshot) (t : Machine) : Prop where
  journal : t.trace.journal.toList = m.trace.journal.toList ++ ss
  calls : ∃ new, t.trace.calls.toList = m.trace.calls.toList ++ new ∧
    (new.filter (·.hook = name)).map (·.snapshot) = ss

theorem Hears.of_same (hj : t.trace.journal = m.trace.journal) (hc : t.trace.calls = m.trace.calls) :
    Hears name m [] t :=
  ⟨by simp [hj], [], by simp [hc], rfl⟩

theorem Hears.trans (h : Hears name m ss t) (h' : Hears name t ss' u) : Hears name m (ss ++ ss') u := by
  obtain ⟨new, hnew, hss⟩ := h.calls
  obtain ⟨new', hnew', hss'⟩ := h'.calls
  refine ⟨by rw [h'.journal, h.journal, List.append_assoc], new ++ new', ?_, ?_⟩
  · rw [hnew', hnew, List.append_assoc]
  · rw [List.filter_append, List.map_append, hss, hss']

/-- A hook that calls get to is called once on a completed cycle. -/
theorem Completes.hears (h : m.Completes d c) (hm : m.trace.Distinct) (hr : m.trace.Reaches name) :
    Hears name m [m.report d c] (left m.step) := by
  obtain ⟨htold, hjournal⟩ := h.told
  exact ⟨by simp [hjournal], _, htold.calls, hr.called_once hm _⟩

/-- From `m` to `t` these instructions were counted, with consecutive numbers. -/
structure Counts (m : Machine) (ss : List Snapshot) (t : Machine) : Prop where
  numbers : ss.map (·.cycle) = List.range' (m.cycles + 1) ss.length
  cycles : t.cycles = m.cycles + ss.length

theorem Counts.of_same (h : t.cycles = m.cycles) : Counts m [] t := ⟨rfl, h⟩

theorem Counts.trans (h : Counts m ss t) (h' : Counts t ss' u) : Counts m (ss ++ ss') u where
  numbers := by
    rw [List.map_append, h.numbers, h'.numbers, h.cycles, Nat.add_right_comm, List.range'_append_1,
      List.length_append]
  cycles := by rw [h'.cycles, h.cycles, List.length_append, Nat.add_assoc]

theorem Completes.counts (h : m.Completes d c) : Counts m [m.report d c] (left m.step) := by
  rw [h.left_eq]
  exact ⟨rfl, rfl⟩

/-- What a cycle tells a hook that calls get to. -/
theorem step_hears (hm : m.trace.Distinct) (hr : m.trace.Reaches name) :
    ∃ ss, Hears name m ss (left m.step) ∧ Counts m ss (left m.step) := by
  by_cases h : ∃ d c, m.Completes d c
  · obtain ⟨d, c, h⟩ := h
    exact ⟨_, h.hears hm hr, h.counts⟩
  · have huntold := step_untold (m := m) (by simpa using h)
    exact ⟨[], .of_same (congrArg _ huntold.1) (congrArg _ huntold.1), .of_same huntold.2⟩

theorem step_distinct (hm : m.trace.Distinct) : (left m.step).trace.Distinct := by
  by_cases h : ∃ d c, m.Completes d c
  · obtain ⟨d, c, h⟩ := h
    exact h.told.1.distinct hm
  · rwa [(step_untold (by simpa using h)).1]

end Machine

open Machine (Hears Counts)

variable {m : Machine} {name : String}

theorem HostAction.act_distinct (a : HostAction) (hm : m.trace.Distinct) :
    (left (a.act m)).trace.Distinct := by
  cases a.scope with
  | step =>
    rw [act, left_map]
    exact Machine.step_distinct hm
  | reset =>
    obtain ⟨b, hb⟩ := m.left_reset
    rw [act, left_map, hb]
    exact hm
  | addHook hook => exact Trace.add_distinct hm hook
  | removeHook name => exact Trace.remove_distinct hm name
  | setTrace on => exact hm
  | core h =>
    obtain ⟨e, he⟩ := h
    rw [he, Machine.left_onCore]
    exact hm

/-- What a hook hears of one action; a reset counts from the start again. -/
theorem HostAction.act_hears (a : HostAction) (hm : m.trace.Distinct)
    (hr : a = .step → m.trace.Reaches name) :
    ∃ ss, Hears name m ss (left (a.act m)) ∧ (a ≠ .reset → Counts m ss (left (a.act m))) := by
  cases a.scope with
  | step =>
    rw [act, left_map]
    obtain ⟨ss, hhears, hcounts⟩ := Machine.step_hears hm (hr rfl)
    exact ⟨ss, hhears, fun _ => hcounts⟩
  | reset =>
    obtain ⟨b, hb⟩ := m.left_reset
    rw [act, left_map, hb]
    exact ⟨[], .of_same rfl rfl, fun h => absurd rfl h⟩
  | addHook | removeHook | setTrace => exact ⟨[], .of_same rfl rfl, fun _ => .of_same rfl⟩
  | core h =>
    obtain ⟨e, he⟩ := h
    rw [he, Machine.left_onCore]
    exact ⟨[], .of_same rfl rfl, fun _ => .of_same rfl⟩

/-- Wherever a cycle of the session begins, calls get to the hook of this name. -/
def Attends (name : String) : List HostAction → Machine → Prop
  | [], _ => True
  | a :: rest, m => (a = .step → m.trace.Reaches name) ∧ Attends name rest (left (a.act m))

theorem session_hears {actions : List HostAction} (hm : m.trace.Distinct)
    (ha : Attends name actions m) :
    ∃ ss, Hears name m ss (session actions m) ∧
      (.reset ∉ actions → Counts m ss (session actions m)) := by
  induction actions generalizing m with
  | nil => exact ⟨[], .of_same rfl rfl, fun _ => .of_same rfl⟩
  | cons a actions ih =>
    obtain ⟨hr, hrest⟩ := ha
    obtain ⟨ss, hhears, hcounts⟩ := a.act_hears hm hr
    obtain ⟨ss', hhears', hcounts'⟩ := ih (a.act_distinct hm) hrest
    refine ⟨ss ++ ss', hhears.trans hhears', fun hreset => ?_⟩
    rw [List.mem_cons, not_or] at hreset
    exact (hcounts (Ne.symm hreset.1)).trans (hcounts' hreset.2)

/-- A completed cycle calls the hooks registered at that moment, each once and up to the first that
fails, and another cycle calls none. -/
theorem session_hooks {b : Bus} {seed : Int} {m₀ : Machine} (h₀ : Machine.create b seed = .ok m₀)
    (actions : List HostAction) :
    let m := session actions m₀
    (∀ d c, m.Completes d c → m.Delivers d c) ∧
      ((∀ d c, ¬ m.Completes d c) →
        (left m.step).trace = m.trace ∧ (left m.step).cycles = m.cycles) ∧
      (∀ hook, session [.addHook hook, .addHook hook] m = session [.addHook hook] m) ∧
      ∀ name later, Attends name later m → ∃ ss, Hears name m ss (session later m) ∧
        (.reset ∉ later → Counts m ss (session later m)) := by
  intro m
  have hm : m.trace.Distinct := by
    refine session_keeps (I := fun m => m.trace.Distinct) (fun a _ m hm => ?_) ?_
    · exact ends_left.2 (a.act_distinct hm)
    · obtain ⟨u, -, rfl⟩ := Machine.create_eq_ok.1 h₀
      exact List.nodup_nil
  refine ⟨fun d c h => h.delivers hm, Machine.step_untold, fun hook => ?_,
    fun name later ha => session_hears hm ha⟩
  change { m with trace := (m.trace.add hook).add hook } = { m with trace := m.trace.add hook }
  rw [Trace.add_add]

/-- A hook that takes itself off the list, one that fails, and one behind it. -/
def threeHooks : List Hook :=
  [⟨"once", [.unhook "once"]⟩, ⟨"failing", [.fail "no"]⟩, ⟨"late", []⟩]

/-- The program is a jump to itself. -/
def hooked : List HostAction := .load [0x12, 0x00] :: threeHooks.map .addHook

theorem session_hooks_hooked : ∃ m₀, Machine.create Bus.blank 7 = .ok m₀ ∧
    let m := session hooked m₀
    (∃ d c, m.Delivers d c) ∧ m.trace.called.map (·.name) = ["once", "failing"] ∧
      ∃ ss, Hears "failing" m ss (session [.step, .step, .step] m) ∧ ss.map (·.cycle) = [1, 2, 3] := by
  obtain ⟨m₀, h₀, hrun⟩ := Machine.exists_created Bus.blank 7 (fun m₀ =>
    let m := session hooked m₀
    let t := left m.step
    let u := left t.step
    decide (m.trace.hooks = threeHooks ∧ m.trace.enabled = true ∧ m.cycles = 0) &&
      decide (t.trace.hooks = threeHooks.tail ∧ t.trace.enabled = true ∧ t.cycles = 1) &&
      decide (u.trace.hooks = threeHooks.tail ∧ u.trace.enabled = true ∧
        (left u.step).cycles = 3)) (by decide +kernel)
  simp only [Bool.and_eq_true, decide_eq_true_eq] at hrun
  obtain ⟨⟨⟨hhooks, hon, hcycles⟩, hhooks₁, hon₁, hcycles₁⟩, hhooks₂, hon₂, hcycles₃⟩ := hrun
  obtain ⟨hdelivers, huntold, -, hhears⟩ := session_hooks h₀ hooked
  have hcompletes : ∃ d c, (session hooked m₀).Completes d c := by
    by_contra hnone
    have hsame := (huntold (by simpa using hnone)).2
    omega
  obtain ⟨d, c, hcompletes⟩ := hcompletes
  have hfirst : (session hooked m₀).trace.Reaches "failing" :=
    ⟨hon, [⟨"once", [.unhook "once"]⟩], _, _, hhooks, rfl, by simp [Hook.Calm]⟩
  have hattends : Attends "failing" [.step, .step, .step] (session hooked m₀) := by
    refine ⟨fun _ => hfirst, fun _ => ?_, fun _ => ?_, trivial⟩ <;> simp only [HostAction.act, left_map]
    · exact ⟨hon₁, [], _, _, hhooks₁, rfl, by simp⟩
    · exact ⟨hon₂, [], _, _, hhooks₂, rfl, by simp⟩
  obtain ⟨ss, hss, hcounts⟩ := hhears "failing" _ hattends
  obtain ⟨hnumbers, hcount⟩ := hcounts (by simp)
  have hafter : (session [.step, .step, .step] (session hooked m₀)).cycles = 3 := by
    simpa only [session, List.foldl_cons, List.foldl_nil, HostAction.act, left_map] using hcycles₃
  have hlength : ss.length = 3 := by omega
  refine ⟨m₀, h₀, ⟨d, c, hdelivers d c hcompletes⟩, ?_, ss, hss, ?_⟩
  · rw [Trace.called, if_pos hon, hhooks]
    rfl
  · rw [hnumbers, hlength, hcycles]
    rfl

end SpriteVM
