import SpriteVM.Proofs.Host.Run
import SpriteVM.Proofs.Machine.Parts
import SpriteVM.Proofs.Machine.StepFault

namespace SpriteVM

namespace Machine

variable {m t : Machine} {s : Snapshot} {ss : List Snapshot} {room : Nat}

/-- A host that runs a machine keeps to `I`: cycles, ends of waits and ends of frames do. -/
structure Preserved (I : Machine → Prop) : Prop where
  step : ∀ {m s t}, I m → Machine.step m = .ok s t → I t
  resolveKey : ∀ {m got t}, I m → Machine.resolveKey m = .ok got t → I t
  closed : ∀ {m}, I m → I m.closed

namespace Preserved

variable {I J : Machine → Prop}

theorem and (hI : Preserved I) (hJ : Preserved J) : Preserved fun m => I m ∧ J m where
  step h hs := ⟨hI.step h.1 hs, hJ.step h.2 hs⟩
  resolveKey h hr := ⟨hI.resolveKey h.1 hr, hJ.resolveKey h.2 hr⟩
  closed h := ⟨hI.closed h.1, hJ.closed h.2⟩

theorem executes (hI : Preserved I) (h : m.Executes ss t) (hm : I m) : I t := by
  induction ss generalizing m with
  | nil =>
    obtain rfl := executes_nil.1 h
    exact hm
  | cons s ss ih =>
    obtain ⟨-, u, hs, hrest⟩ := executes_cons.1 h
    exact ih hrest (hI.step hm hs)

theorem turn (hI : Preserved I) (h : Turn room m ss t) (hm : I m) : I t := by
  cases h with
  | answered _ hr => exact hI.resolveKey hm hr
  | played _ h => exact hI.executes h hm

end Preserved

theorem sound_preserved {L : Layout} (hL : L.MemoryOnly) : Preserved (Sound L) where
  step hm hs := (step_keeps hL _ hm).ok hs
  resolveKey hm hr := (resolveKey_keeps _ hm).ok hr
  closed hm := ⟨{ hm.state.tick with }, hm.layout⟩

/-- Whatever a machine within its bounds waits for, looking for a key does not fail. -/
theorem Sound.resolveKey_returns {L : Layout} {f : Fault} (hm : m.Sound L) :
    m.resolveKey ≠ .error f t := by
  intro hr
  have ho := resolveKey_outcome m
  rw [hr] at ho
  cases ho with
  | lost _ _ ht =>
    have htarget : 0 ≤ m.state.keyTarget ∧ m.state.keyTarget ≤ 15 := hm.state.keyTarget
    rw [slot?_eq_some (by omega)] at ht
    cases ht

/-- The trace stays as it is where no cycle is gone through. -/
theorem resolveKey_trace {got : Bool} (hr : m.resolveKey = .ok got t) : t.trace = m.trace := by
  obtain ⟨v, b, rfl⟩ := resolveKey_rest hr
  rfl

theorem calm_preserved : Preserved fun m => m.trace.Calm where
  step := by
    intro m s t hm hs
    have ho := step_outcome m
    rw [hs] at ho
    cases ho with
    | waiting => exact hm
    | done _ _ _ _ hn =>
      have hfollows := (Trace.ends_notify (P := True) hm (fun _ => trivial) _).ok hn
      exact fun h hh => hm h (hfollows.hooks hh)
  resolveKey := by
    intro m got t hm hr
    rw [resolveKey_trace hr]
    exact hm
  closed := id

/-- The instruction executed last is an unknown one. -/
def LastUnknown (m : Machine) : Prop :=
  ∃ s d, m.trace.journal.back? = some s ∧ s.executed = some d ∧ d.kind = .unknown

/-- If the machine quit, then it was an unknown instruction that made it quit. -/
def QuitExplained (m : Machine) : Prop := m.state.quit = true → m.LastUnknown

/-- No other instruction stops the machine in this way. -/
theorem unknown_of_quit {d : Instruction} {c u : Core} (he : Core.execute d c = .ok () u)
    (hc : c.state.quit = false) (hu : u.state.quit = true) : d.kind = .unknown := by
  have hwrites := (Core.execute_writes d c).ok he
  by_contra hk
  have hnot : Part.quit ∉ d.kind.writes := by
    generalize d.kind = kind at hk
    cases kind <;> simp_all [Kind.writes]
  have hsame : u.state.quit = c.state.quit := hwrites .quit hnot
  rw [hu, hc] at hsame
  contradiction

theorem quitExplained_preserved : Preserved QuitExplained where
  step := by
    intro m s t hm hs
    have ho := step_outcome m
    rw [hs] at ho
    cases ho with
    | waiting => exact hm
    | @done ha _ d b c trace hr he hn =>
      intro hquit
      have hbefore : m.state.quit = false := (Bool.or_eq_false_iff.1 ha.1).2
      have hjournal : trace.journal = m.trace.journal.push (m.report d c) :=
        (Trace.notify_told _ _).ok hn
      refine ⟨m.report d c, d, ?_, rfl, unknown_of_quit he hbefore hquit⟩
      rw [hjournal, Array.back?_push]
  resolveKey := by
    intro m got t hm hr
    obtain ⟨v, b, rfl⟩ := resolveKey_rest hr
    exact hm
  closed := id

end Machine

namespace Host

open Machine (Preserved BrokenTurn)

variable {I : Machine → Prop} {h t : Hosted} {frame : Frame} {f : Fault} {n : Nat}
  {last : Option Frame} {xs : List Hosted} {r : EStateM.Result Fault Hosted (Option Frame × Bool)}

theorem frame_preserves (hI : Preserved I) (hr : runFrame h = .ok frame t) (hm : I h.machine) :
    I t.machine := by
  obtain ⟨ss, u, hturn, -, rfl⟩ := runFrame_eq_ok hr
  exact hI.closed (hI.turn hturn hm)

namespace RunOutcome

theorem begun_preserved (ho : RunOutcome n last h xs r) (hI : Preserved I) (hm : I h.machine) :
    ∀ x ∈ xs, I x.machine := by
  induction ho with
  | spent | stopped => simp
  | broken | rests => simpa using hm
  | goes _ hr _ _ ih => exact List.forall_mem_cons.2 ⟨hm, ih (frame_preserves hI hr hm)⟩

theorem preserved (ho : RunOutcome n last h xs r) (hI : Preserved I) (hm : I h.machine)
    {a : Option Frame × Bool} (hr : r = .ok a t) : I t.machine := by
  induction ho with
  | spent | stopped =>
    obtain ⟨-, rfl⟩ := EStateM.Result.ok.inj hr
    exact hm
  | broken => exact nomatch hr
  | rests _ hf =>
    obtain ⟨-, rfl⟩ := EStateM.Result.ok.inj hr
    exact frame_preserves hI hf hm
  | goes _ hf _ _ ih => exact ih (frame_preserves hI hf hm) hr

/-- A run that fails does so in one of its turns, which begins with all that is kept to. -/
theorem broken_turn (ho : RunOutcome n last h xs r) (hI : Preserved I) (hm : I h.machine)
    (hr : r = .error f t) :
    ∃ x ∈ xs, I x.machine ∧ ∃ ss, BrokenTurn x.host.cyclesPerFrame x.machine ss f t.machine := by
  obtain ⟨x, hx, hf⟩ := ho.fails hr
  obtain ⟨ss, u, hturn, rfl⟩ := runFrame_eq_error hf
  exact ⟨x, hx, ho.begun_preserved hI hm x hx, ss, hturn⟩

end RunOutcome

/-- In one of the frames of a run a cycle fails. -/
def CycleFails (limit : Option Int) (patience : Nat) (h : Hosted) : Prop :=
  ∃ x ∈ begun (allowed limit patience) h, x.machine.state.blocking = false ∧
    ∃ ss v, x.machine.Executes ss v ∧ ss.length < x.host.cyclesPerFrame ∧ v.Active ∧
      ∃ f t, v.step = .error f t

section OneMemory

variable {L : Layout} {limit : Option Int} {patience : Nat}

variable (hL : L.OneMemory) (hm : h.machine.Sound L) (hcalm : h.machine.trace.Calm)

include hL hm hcalm

/-- The cycle that a failing run ends with. -/
theorem broken_cycle (hr : run limit patience h = .error f t) :
    CycleFails limit patience h ∧ f.kind ∈ Machine.StepFault.families := by
  have ho := runFrames_outcome (allowed limit patience) none h
  have hkept := (Machine.sound_preserved hL.memoryOnly).and Machine.calm_preserved
  obtain ⟨x, hx, hxm, ss, hturn⟩ := ho.broken_turn hkept ⟨hm, hcalm⟩ (run_eq_error.1 hr)
  cases hturn with
  | unanswered _ hr => exact absurd hr hxm.1.resolveKey_returns
  | broke hb hss hroom ha hs =>
    obtain ⟨hsound, hquiet⟩ := hkept.executes hss hxm
    have hcause := (Machine.step_cause hL hsound hquiet).error hs
    exact ⟨⟨x, hx, hb, _, _, hss, hroom, ha, _, _, hs⟩, hcause.family⟩

theorem run_fails_iff : (∃ f t, run limit patience h = .error f t) ↔ CycleFails limit patience h := by
  constructor
  · rintro ⟨f, t, hr⟩
    exact (broken_cycle hL hm hcalm hr).1
  · rintro ⟨x, hx, hb, ss, v, hss, hroom, ha, f, u, hs⟩
    have hframe := runFrame_of_broken (.broke hb hss hroom ha hs)
    have ho := runFrames_outcome (allowed limit patience) none h
    exact ⟨f, _, run_eq_error.2 (ho.error_of_mem hx hframe)⟩

end OneMemory

end Host

end SpriteVM
