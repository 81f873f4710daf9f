import SpriteVM.Proofs.Host.Run
import SpriteVM.Proofs.Machine.Reads

namespace SpriteVM

/-- The instruction that looked at the delay timer. -/
def Snapshot.ReadsDelay (s : Snapshot) : Prop := ∃ d, s.executed = some d ∧ d.kind = .readDelay

namespace Machine

variable {m n t u : Machine} {ss ss' : List Snapshot} {f : Fault}

/-- The parts that a host changes at the end of a frame. -/
def framed : List Part := [.delayTimer, .soundTimer, .draw]

theorem closed_alike (u : Machine) : AlikeBut framed u u.closed := by
  refine ⟨?_, rfl, rfl, rfl, rfl⟩
  simp [Core.changesOnly_iff, framed, closed, State.tick, state, bus]

theorem reads_unframed {k : Kind} (hk : k ≠ .readDelay) : ∀ p ∈ k.reads, p ∉ framed := by
  cases k <;> simp_all [Kind.reads, framed]

theorem readDelay_returns {d : Instruction} (hk : d.kind = .readDelay) (c : Core) :
    ∃ t, Core.execute d c = .ok () t := by
  unfold Core.execute
  rw [hk]
  exact ⟨_, rfl⟩

/-- An instruction that gets through is in the journal, also if a hook fails on it. -/
theorem report_mem_since {d : Instruction} {b : Bus} {c : Core} (ha : m.Active)
    (hp : m.state.Fetchable) (hr : readInstruction m.state.pc m.cleared.bus = .ok d b)
    (he : Core.execute d ⟨m.state, b⟩ = .ok () c) : m.report d c ∈ m.since (left m.step) := by
  have hmem {t : Machine} (hj : t.trace.journal = m.trace.journal.push (m.report d c)) :
      m.report d c ∈ m.since t := by
    rw [since_told hj]
    exact List.mem_singleton_self _
  have htold := Trace.notify_told (m.report d c) m.trace
  cases hn : Trace.notify (m.report d c) m.trace with
  | ok _ trace =>
    rw [(CycleOutcome.done ha hp hr he hn).step_eq]
    exact hmem (htold.ok hn)
  | error f trace =>
    rw [(CycleOutcome.hookFailed ha hp hr he hn).step_eq]
    exact hmem (htold.error hn).1

/-- What goes on by itself next, wherever a frame ends: a held key ends the wait, and a machine that
does not wait executes an instruction. -/
def beat : Action Unit := fun m =>
  if m.state.blocking then ((fun _ => ()) <$> resolveKey) m else ((fun _ => ()) <$> step) m

theorem beat_of_blocking (hb : m.state.blocking = true) :
    beat m = ((fun _ => ()) <$> resolveKey) m := if_pos hb

theorem beat_of_running (hb : m.state.blocking = false) : beat m = ((fun _ => ()) <$> step) m :=
  if_neg (by simp [hb])

theorem AlikeBut.advances (h : AlikeBut framed m t) : m.Advances [] t :=
  Advances.of_same h.trace h.cycles

/-- From machines that look alike to machines that look alike the same was executed. -/
theorem AlikeBut.executed_eq {v : Machine} (h : AlikeBut framed m n) (h' : AlikeBut framed u v)
    (hss : m.Advances ss u) (hss' : n.Advances ss' v) : ss = ss' := by
  rw [← hss.since_eq, ← hss'.since_eq, since, since, h.trace, h'.trace]

theorem AlikeBut.blocking (h : AlikeBut framed m t) : t.state.blocking = m.state.blocking :=
  h.core .blocking (by decide)

theorem AlikeBut.atRest (h : AlikeBut framed m t) : m.state.AtRest ↔ t.state.AtRest := by
  have hb : t.state.blocking = m.state.blocking := h.blocking
  have hh : t.state.halted = m.state.halted := h.core .halted (by decide)
  have hq : t.state.quit = m.state.quit := h.core .quit (by decide)
  have hk : t.state.keys = m.state.keys := h.core .keys (by decide)
  rw [State.AtRest, State.AtRest, State.terminal, State.terminal, State.KeyHeld, State.KeyHeld, hb, hh,
    hq, hk]

/-- What happens next does not depend on the timers and the draw flag, unless the instruction reads
the delay timer. -/
theorem beat_alike (h : AlikeBut framed m t) (hss : m.Advances ss (left (beat m)))
    (hclean : ∀ s ∈ ss, ¬ s.ReadsDelay) :
    seen (AlikeBut framed) (beat m) = seen (AlikeBut framed) (beat t) := by
  cases hb : m.state.blocking with
  | true =>
    rw [beat_of_blocking hb, beat_of_blocking (h.blocking.trans hb), seen_map, seen_map,
      resolveKey_alike (by decide) m t (alikeBut_eq.2 h)]
  | false =>
    rw [beat_of_running hb, left_map] at hss
    rw [beat_of_running hb, beat_of_running (h.blocking.trans hb), seen_map, seen_map]
    have hstep : seen (AlikeBut framed) m.step = seen (AlikeBut framed) t.step := by
      refine step_alike (by decide) h fun d b ha hp hr => reads_unframed fun hk => ?_
      obtain ⟨c, he⟩ := readDelay_returns hk ⟨m.state, b⟩
      have hmem := report_mem_since ha hp hr he
      rw [hss.since_eq] at hmem
      exact hclean _ hmem ⟨d, rfl, hk⟩
    rw [hstep]

/-- Where the beats lead that execute `ss`, with the ends of frames anywhere between them; the last
one may fail. -/
inductive Trail : Machine → List Snapshot → EStateM.Result Fault Machine Unit → Prop
  | nil {m t : Machine} (h : AlikeBut framed m t) : Trail m [] (.ok () t)
  | broke {m n u : Machine} {ss : List Snapshot} {f : Fault} (h : AlikeBut framed m n)
    (hgo : ¬ n.state.AtRest) (hb : beat n = .error f u) (hss : n.Advances ss u) :
    Trail m ss (.error f u)
  | cons {m n u : Machine} {ss ss' : List Snapshot} {r : EStateM.Result Fault Machine Unit}
    (h : AlikeBut framed m n) (hgo : ¬ n.state.AtRest) (hb : beat n = .ok () u)
    (hss : n.Advances ss u) (hrest : Trail u ss' r) : Trail m (ss ++ ss') r

namespace Trail

variable {r r₁ r₂ : EStateM.Result Fault Machine Unit} {ss₁ ss₂ : List Snapshot}

theorem of_alike (h : AlikeBut framed m n) (ht : Trail n ss r) : Trail m ss r := by
  cases ht with
  | nil h' => exact .nil (h.trans h')
  | broke h' hgo hb hss => exact .broke (h.trans h') hgo hb hss
  | cons h' hgo hb hss hrest => exact .cons (h.trans h') hgo hb hss hrest

theorem trans (h : Trail m ss r₁) (hr : r₁ = .ok () t) (h' : Trail t ss' r) : Trail m (ss ++ ss') r := by
  induction h with
  | nil h =>
    obtain ⟨-, rfl⟩ := EStateM.Result.ok.inj hr
    exact h'.of_alike h
  | broke => exact nomatch hr
  | cons h hgo hb hss hrest ih =>
    rw [List.append_assoc]
    exact .cons h hgo hb hss (ih hr)

theorem advances (h : Trail m ss r) : m.Advances ss (left r) := by
  induction h with
  | nil h => exact h.advances
  | broke h _ _ hss => exact h.advances.trans hss
  | cons h _ _ hss _ ih => exact (h.advances.trans hss).trans ih

/-- A machine at rest stays where it is. -/
theorem of_atRest (h : Trail m ss r) (hm : m.state.AtRest) :
    ss = [] ∧ ∃ t, r = .ok () t ∧ AlikeBut framed m t := by
  cases h with
  | nil h => exact ⟨rfl, _, rfl, h⟩
  | broke h hgo | cons h hgo => exact absurd (h.atRest.1 hm) hgo

/-- Of two trails from machines that look alike one leads on from where the other ends, or both fail
in the same beat. -/
theorem meets (h₁ : Trail m ss₁ r₁) (h₂ : Trail n ss₂ r₂) (hmn : AlikeBut framed m n)
    (hclean : ∀ s ∈ ss₁, ¬ s.ReadsDelay) :
    (∃ t ss, r₁ = .ok () t ∧ Trail t ss r₂ ∧ ss₂ = ss₁ ++ ss) ∨
      (∃ t ss, r₂ = .ok () t ∧ Trail t ss r₁ ∧ ss₁ = ss₂ ++ ss) ∨
      ∃ f u₁ u₂, r₁ = .error f u₁ ∧ r₂ = .error f u₂ ∧ AlikeBut framed u₁ u₂ ∧ ss₁ = ss₂ := by
  induction h₁ generalizing n ss₂ with
  | @nil m t h => exact .inl ⟨t, ss₂, rfl, h₂.of_alike (h.symm.trans hmn), rfl⟩
  | @broke m m' u₁ ss f h hgo hb hss =>
    have hleft : m'.Advances ss (left (beat m')) := by
      rw [hb]
      exact hss
    cases h₂ with
    | nil h' => exact .inr (.inl ⟨_, ss, rfl, .broke (((hmn.trans h').symm).trans h) hgo hb hss, rfl⟩)
    | @broke n' n' u₂ ss₂ f₂ h' _ hb' hss' =>
      have halike := (h.symm.trans hmn).trans h'
      have hseen := beat_alike halike hleft hclean
      rw [hb, hb', seen, seen, Prod.mk.injEq] at hseen
      obtain rfl := Except.error.inj hseen.1
      have hu := alikeBut_eq.1 hseen.2
      exact .inr (.inr ⟨f, u₁, u₂, rfl, rfl, hu, halike.executed_eq hu hss hss'⟩)
    | cons h' _ hb' =>
      have hseen := beat_alike ((h.symm.trans hmn).trans h') hleft hclean
      rw [hb, hb', seen, seen, Prod.mk.injEq] at hseen
      cases hseen.1
  | @cons m m' u₁ ss ss' r h hgo hb hss hrest ih =>
    have hleft : m'.Advances ss (left (beat m')) := by
      rw [hb]
      exact hss
    have hclean₁ : ∀ s ∈ ss, ¬ s.ReadsDelay := fun s hs => hclean s (List.mem_append_left _ hs)
    cases h₂ with
    | nil h' =>
      exact .inr (.inl ⟨_, _, rfl, .cons (((hmn.trans h').symm).trans h) hgo hb hss hrest, rfl⟩)
    | broke h' _ hb' =>
      have hseen := beat_alike ((h.symm.trans hmn).trans h') hleft hclean₁
      rw [hb, hb', seen, seen, Prod.mk.injEq] at hseen
      cases hseen.1
    | @cons n' n' u₂ ss₂ ss₂' r₂ h' _ hb' hss' hrest' =>
      have halike := (h.symm.trans hmn).trans h'
      have hseen := beat_alike halike hleft hclean₁
      rw [hb, hb', seen, seen, Prod.mk.injEq] at hseen
      have hu := alikeBut_eq.1 hseen.2
      obtain rfl := halike.executed_eq hu hss hss'
      have hclean' : ∀ s ∈ ss', ¬ s.ReadsDelay := fun s hs => hclean s (List.mem_append_right _ hs)
      rcases ih hrest' hu hclean' with ⟨t, l, ht, hl, he⟩ | ⟨t, l, ht, hl, he⟩ |
        ⟨f, v₁, v₂, hr₁, hr₂, hv, he⟩
      · exact .inl ⟨t, l, ht, hl, by rw [he, List.append_assoc]⟩
      · exact .inr (.inl ⟨t, l, ht, hl, by rw [he, List.append_assoc]⟩)
      · exact .inr (.inr ⟨f, v₁, v₂, hr₁, hr₂, hv, by rw [he]⟩)

end Trail

variable {room : Nat}

theorem Active.beat_of_step (ha : m.Active) {s : Snapshot} (hs : m.step = .ok s t) :
    beat m = .ok () t := by
  rw [beat_of_running ha.2, map_of_ok _ hs]

theorem Active.goes (ha : m.Active) : ¬ m.state.AtRest := by
  rintro (ht | ⟨hb, -⟩)
  · rw [ha.1] at ht
    contradiction
  · rw [ha.2] at hb
    contradiction

theorem Executes.trail (h : m.Executes ss t) : Trail m ss (.ok () t) := by
  induction ss generalizing m with
  | nil =>
    obtain rfl := executes_nil.1 h
    exact .nil (AlikeBut.refl framed m)
  | cons s ss ih =>
    obtain ⟨hex, u, hs, hrest⟩ := executes_cons.1 h
    obtain ⟨d, hd⟩ := Option.isSome_iff_exists.1 hex
    have ha := (step_eq_ok hs hd).1
    have hone := (step_advances m).ok hs
    have hfilter : [s].filter (·.executed.isSome) = [s] := List.filter_cons_of_pos hex
    rw [hfilter] at hone
    exact .cons (AlikeBut.refl framed m) ha.goes (ha.beat_of_step hs) hone (ih hrest)

/-- In a turn there is a beat for the end of a wait, and one for each instruction. -/
theorem Turn.trail (h : Turn room m ss u) (ht : m.state.terminal = false) : Trail m ss (.ok () u) := by
  cases h with
  | answered hb hr =>
    have hbeat : beat m = .ok () u := by rw [beat_of_blocking hb, map_of_ok _ hr]
    have hone := (resolveKey_advances m).ok hr
    have ho := resolveKey_outcome m
    rw [hr] at ho
    cases ho with
    | idle hn =>
      rw [hb] at hn
      contradiction
    | unheld => exact .nil (AlikeBut.refl framed m)
    | pressed _ hk =>
      have hgo : ¬ m.state.AtRest := by
        rintro (hterm | ⟨-, hn⟩)
        · rw [ht] at hterm
          contradiction
        · exact hn (State.keyHeld_of_lowestKey? hk)
      exact .cons (AlikeBut.refl framed m) hgo hbeat hone (.nil (AlikeBut.refl framed _))
  | played _ h => exact h.trail

theorem BrokenTurn.trail (h : BrokenTurn room m ss f u) (ht : m.state.terminal = false) :
    ∃ ss', Trail m ss' (.error f u) := by
  cases h with
  | unanswered hb hr =>
    have hbeat : beat m = .error f u := by rw [beat_of_blocking hb, map_of_error _ hr]
    have hone := (resolveKey_advances m).error hr
    have ho := resolveKey_outcome m
    rw [hr] at ho
    cases ho with
    | lost _ hk =>
      have hgo : ¬ m.state.AtRest := by
        rintro (hterm | ⟨-, hn⟩)
        · rw [ht] at hterm
          contradiction
        · exact hn (State.keyHeld_of_lowestKey? hk)
      exact ⟨[], .broke (AlikeBut.refl framed m) hgo hbeat hone⟩
  | @broke _ _ v u f h _ ha hs =>
    have hbeat : beat v = .error f u := by rw [beat_of_running ha.2, map_of_error _ hs]
    obtain ⟨ss', -, hone⟩ := (step_advances v).error hs
    exact ⟨ss ++ ss', h.trail.trans rfl (.broke (AlikeBut.refl framed v) ha.goes hbeat hone)⟩

end Machine

namespace Host

open Machine (AlikeBut Trail framed)

variable {h : Hosted} {n : Nat} {last : Option Frame} {α : Type}

/-- What is left of the machine in what a host's call comes to. -/
def machineOf : EStateM.Result Fault Hosted α → EStateM.Result Fault Machine Unit
  | .ok _ t => .ok () t.machine
  | .error f t => .error f t.machine

theorem frame_trail (ht : h.machine.state.terminal = false) :
    ∃ ss, Trail h.machine ss (machineOf (runFrame h)) := by
  have ho := runFrame_outcome h
  generalize runFrame h = r at ho
  cases ho with
  | @completed ss u hturn =>
    have htrail := (hturn.trail ht).trans rfl (.nil (Machine.closed_alike u))
    exact ⟨_, htrail⟩
  | broken hturn => exact hturn.trail ht

/-- A run is one trail, wherever its frames end. -/
theorem RunOutcome.trail {xs : List Hosted} {r : EStateM.Result Fault Hosted (Option Frame × Bool)}
    (ho : RunOutcome n last h xs r) : ∃ ss, Trail h.machine ss (machineOf r) := by
  induction ho with
  | spent | stopped => exact ⟨[], .nil (AlikeBut.refl framed _)⟩
  | broken ht hr | rests ht hr =>
    have hframe := frame_trail ht
    rw [hr] at hframe
    exact hframe
  | goes ht hr _ _ ih =>
    obtain ⟨ss, hframe⟩ := frame_trail ht
    obtain ⟨ss', hrest⟩ := ih
    rw [hr] at hframe
    exact ⟨ss ++ ss', hframe.trans rfl hrest⟩

theorem run_trail (limit : Option Int) (patience : Nat) (h : Hosted) :
    ∃ ss, Trail h.machine ss (machineOf (run limit patience h)) := by
  have htrail := (runFrames_outcome (allowed limit patience) none h).trail
  rw [run_eq]
  cases hr : runFrames (allowed limit patience) none h with
  | ok a t =>
    rw [hr] at htrail
    rw [map_of_ok _ hr]
    exact htrail
  | error f t =>
    rw [hr] at htrail
    rw [map_of_error _ hr]
    exact htrail

theorem left_machineOf (r : EStateM.Result Fault Hosted α) : left (machineOf r) = (left r).machine := by
  cases r <;> rfl

/-- Whatever the sizes of their frames, of two runs one executes the beginning of what the other does,
unless the delay timer is read. -/
theorem run_frameSize (m : Machine) (host₁ host₂ : Host) (limit₁ limit₂ : Option Int)
    (patience₁ patience₂ : Nat)
    (hclean : ∀ s ∈ m.since (left (run limit₁ patience₁ ⟨m, host₁⟩)).machine, ¬ s.ReadsDelay) :
    let r₁ := run limit₁ patience₁ ⟨m, host₁⟩
    let r₂ := run limit₂ patience₂ ⟨m, host₂⟩
    (m.since (left r₁).machine <+: m.since (left r₂).machine ∨
        m.since (left r₂).machine <+: m.since (left r₁).machine) ∧
      (∀ a₁ a₂ t₁ t₂, r₁ = .ok a₁ t₁ → r₂ = .ok a₂ t₂ → t₁.machine.state.terminal = true →
        t₂.machine.state.terminal = true → AlikeBut framed t₁.machine t₂.machine) ∧
      ∀ f₁ f₂ t₁ t₂, r₁ = .error f₁ t₁ → r₂ = .error f₂ t₂ →
        f₁ = f₂ ∧ AlikeBut framed t₁.machine t₂.machine := by
  intro r₁ r₂
  obtain ⟨ss₁, h₁⟩ := run_trail limit₁ patience₁ ⟨m, host₁⟩
  obtain ⟨ss₂, h₂⟩ := run_trail limit₂ patience₂ ⟨m, host₂⟩
  have hs₁ : m.since (left r₁).machine = ss₁ := by
    rw [← left_machineOf]
    exact h₁.advances.since_eq
  have hs₂ : m.since (left r₂).machine = ss₂ := by
    rw [← left_machineOf]
    exact h₂.advances.since_eq
  have hclean₁ : ∀ s ∈ ss₁, ¬ s.ReadsDelay := hs₁ ▸ hclean
  have hmeets := h₁.meets h₂ (AlikeBut.refl framed m) hclean₁
  refine ⟨?_, ?_, ?_⟩
  · rw [hs₁, hs₂]
    rcases hmeets with ⟨_, ss, -, -, rfl⟩ | ⟨_, ss, -, -, rfl⟩ | ⟨_, _, _, -, -, -, rfl⟩
    · exact .inl (List.prefix_append ss₁ ss)
    · exact .inr (List.prefix_append ss₂ ss)
    · exact .inl (List.prefix_refl ss₁)
  · intro a₁ a₂ t₁ t₂ hr₁ hr₂ hterm₁ hterm₂
    have hm₁ : machineOf r₁ = .ok () t₁.machine := by rw [hr₁, machineOf]
    have hm₂ : machineOf r₂ = .ok () t₂.machine := by rw [hr₂, machineOf]
    rcases hmeets with ⟨t, ss, ht, htrail, -⟩ | ⟨t, ss, ht, htrail, -⟩ | ⟨f, u₁, _, hf, -⟩
    · obtain ⟨-, rfl⟩ := EStateM.Result.ok.inj (hm₁.symm.trans ht)
      obtain ⟨-, t', ht', halike⟩ := htrail.of_atRest (.inl hterm₁)
      obtain ⟨-, rfl⟩ := EStateM.Result.ok.inj (hm₂.symm.trans ht')
      exact halike
    · obtain ⟨-, rfl⟩ := EStateM.Result.ok.inj (hm₂.symm.trans ht)
      obtain ⟨-, t', ht', halike⟩ := htrail.of_atRest (.inl hterm₂)
      obtain ⟨-, rfl⟩ := EStateM.Result.ok.inj (hm₁.symm.trans ht')
      exact halike.symm
    · exact nomatch hm₁.symm.trans hf
  · intro f₁ f₂ t₁ t₂ hr₁ hr₂
    have hm₁ : machineOf r₁ = .error f₁ t₁.machine := by rw [hr₁, machineOf]
    have hm₂ : machineOf r₂ = .error f₂ t₂.machine := by rw [hr₂, machineOf]
    rcases hmeets with ⟨t, ss, ht, -⟩ | ⟨t, ss, ht, -⟩ | ⟨f, u₁, u₂, hf₁, hf₂, halike, -⟩
    · exact nomatch hm₁.symm.trans ht
    · exact nomatch hm₂.symm.trans ht
    · obtain ⟨rfl, rfl⟩ := EStateM.Result.error.inj (hm₁.symm.trans hf₁)
      obtain ⟨rfl, rfl⟩ := EStateM.Result.error.inj (hm₂.symm.trans hf₂)
      exact ⟨rfl, halike⟩

/-- A delay of five is set before a wait for a key, which is held, and a stop. -/
def delayedWait (m₀ : Machine) : Machine :=
  session [.load [0x60, 0x05, 0xF0, 0x15, 0xF0, 0x0A, 0xFF, 0xFF], .setKey 3 true] m₀

/-- With room for one instruction in a frame the delay runs down further than with room for three. -/
theorem run_frameSize_delayedWait : ∃ m₀, Machine.create Bus.blank 7 = .ok m₀ ∧
    (∀ s ∈ (delayedWait m₀).since (left (run (some 9) 0 ⟨delayedWait m₀, ⟨1, 0⟩⟩)).machine,
      ¬ s.ReadsDelay) ∧
    ∃ a₁ a₂ t₁ t₂, run (some 9) 0 ⟨delayedWait m₀, ⟨1, 0⟩⟩ = .ok a₁ t₁ ∧
      run (some 9) 0 ⟨delayedWait m₀, ⟨3, 0⟩⟩ = .ok a₂ t₂ ∧ t₁.machine.state.delayTimer = 1 ∧
      t₂.machine.state.delayTimer = 2 ∧ AlikeBut framed t₁.machine t₂.machine := by
  obtain ⟨m₀, h₀, hrun⟩ := Machine.exists_created Bus.blank 7 (fun m₀ =>
    match run (some 9) 0 ⟨delayedWait m₀, ⟨1, 0⟩⟩, run (some 9) 0 ⟨delayedWait m₀, ⟨3, 0⟩⟩ with
    | .ok _ t₁, .ok _ t₂ => ((delayedWait m₀).since t₁.machine).all
        (fun s => s.executed.all fun d => d.kind != .readDelay) && t₁.machine.state.terminal &&
          t₂.machine.state.terminal && t₁.machine.state.delayTimer == 1 &&
            t₂.machine.state.delayTimer == 2
    | _, _ => false) (by decide +kernel)
  cases hr₁ : run (some 9) 0 ⟨delayedWait m₀, ⟨1, 0⟩⟩ with
  | error f t => simp [hr₁] at hrun
  | ok a₁ t₁ =>
    cases hr₂ : run (some 9) 0 ⟨delayedWait m₀, ⟨3, 0⟩⟩ with
    | error f t => simp [hr₁, hr₂] at hrun
    | ok a₂ t₂ =>
      simp only [hr₁, hr₂, Bool.and_eq_true, List.all_eq_true, beq_iff_eq] at hrun
      obtain ⟨⟨⟨⟨hall, hterm₁⟩, hterm₂⟩, hdelay₁⟩, hdelay₂⟩ := hrun
      have hclean : ∀ s ∈ (delayedWait m₀).since
          (left (run (some 9) 0 ⟨delayedWait m₀, ⟨1, 0⟩⟩)).machine, ¬ s.ReadsDelay := by
        rw [hr₁]
        rintro s hs ⟨d, hd, hk⟩
        simpa [hd, hk] using hall s hs
      have halike := (run_frameSize (delayedWait m₀) ⟨1, 0⟩ ⟨3, 0⟩ (some 9) (some 9) 0 0 hclean).2.1
        a₁ a₂ t₁ t₂ hr₁ hr₂ hterm₁ hterm₂
      exact ⟨m₀, h₀, hclean, a₁, a₂, t₁, t₂, hr₁, hr₂, hdelay₁, hdelay₂, halike⟩

end Host

end SpriteVM
