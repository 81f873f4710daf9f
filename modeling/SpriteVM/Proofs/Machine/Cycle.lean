import SpriteVM.Proofs.Machine.Execute

namespace SpriteVM

namespace Machine

variable {m : Machine}

theorem ends_fetch {Q : Int → Machine → Prop} {E : Fault → Machine → Prop} (m : Machine) :
    Ends fetch Q E m ↔
      if (0 ≤ m.state.pc ∧ m.state.pc < State.memorySize) ∧ m.state.pc % 2 = 0 then
        Ends (readInstruction m.state.pc)
          (fun d b => Q d.word { m with core := ⟨m.state, b⟩, fetched := some d })
          (fun f b => E f { m with core := ⟨m.state, b⟩ }) m.bus
      else E (.counter m.state.pc) m := by
  unfold fetch
  rw [ends_bind, ends_inspect]
  by_cases hp : (0 ≤ m.state.pc ∧ m.state.pc < State.memorySize) ∧ m.state.pc % 2 = 0
  · have hn : ¬ (¬ (0 ≤ m.state.pc ∧ m.state.pc < State.memorySize) ∨ m.state.pc % 2 ≠ 0) := by
      rintro (h | h)
      · exact h hp.1
      · exact h hp.2
    simp only [if_neg hn, if_pos hp, ends_bind, ends_onBus, ends_modify, ends_pure]
  · have hn : ¬ (0 ≤ m.state.pc ∧ m.state.pc < State.memorySize) ∨ m.state.pc % 2 ≠ 0 := by
      by_cases hr : 0 ≤ m.state.pc ∧ m.state.pc < State.memorySize
      · exact .inr fun he => hp ⟨hr, he⟩
      · exact .inl hr
    simp only [if_pos hn, if_neg hp, ends_bind, ends_throw]

theorem step_terminal (h : m.state.terminal = true) :
    step m = .error (.stopped m.state.halted) m := by
  unfold step
  change (if m.state.terminal = true then _ else _ : Action Snapshot) m = _
  rw [if_pos h]
  rfl

theorem step_blocking (ht : m.state.terminal = false) (hb : m.state.blocking = true) :
    step m = .ok ⟨none, m.cycles, []⟩ m := by
  unfold step
  change (if m.state.terminal = true then _ else _ : Action Snapshot) m = _
  rw [if_neg (by simp [ht]), if_pos hb]
  rfl

/-- The machine with the record of accesses emptied, as a cycle begins. -/
def cleared (m : Machine) : Machine :=
  { m with core := ⟨m.state, { m.bus with log := [] }⟩ }

/-- The machine after an instruction that ended in `c`, before the hooks are told. -/
def executed (m : Machine) (c : Core) : Machine :=
  { m with core := ⟨c.state, { c.bus with log := [] }⟩, cycles := m.cycles + 1 }

/-- What is told of an instruction that ended in `c`. -/
def report (m : Machine) (d : Instruction) (c : Core) : Snapshot :=
  ⟨some d, m.cycles + 1, c.bus.log⟩

def Active (m : Machine) : Prop := m.state.terminal = false ∧ m.state.blocking = false

theorem ends_step_active {Q : Snapshot → Machine → Prop} {E : Fault → Machine → Prop}
    (ha : m.Active) :
    Ends step Q E m ↔
      Ends fetch (fun word t =>
        Ends (Core.execute (t.decode word)) (fun _ c =>
          Ends (Trace.notify (t.report (t.decode word) c))
            (fun _ trace => Q (t.report (t.decode word) c) { t.executed c with trace := trace })
            (fun f trace => E f { t.executed c with trace := trace }) t.trace)
          (fun f c => E f { t with core := c }) t.core) E m.cleared := by
  unfold step
  rw [ends_bind, ends_get, if_neg (by simp [ha.1]), if_neg (by simp [ha.2]), ends_bind,
    ends_discard, ends_takeLog, ends_bind]
  refine Ends.congr (fun word t => ?_) fun _ _ => Iff.rfl
  rw [ends_bind, ends_get, ends_bind, ends_onCore]
  refine Ends.congr (fun _ c => ?_) fun _ _ => Iff.rfl
  rw [ends_bind, ends_takeLog, ends_bind, ends_modify, ends_bind, ends_get, ends_bind, ends_onTrace]
  rfl

/-- The ways of a cycle: refused, waiting, or gone through. -/
theorem ends_step {Q : Snapshot → Machine → Prop} {E : Fault → Machine → Prop}
    (hstop : m.state.terminal = true → E (.stopped m.state.halted) m)
    (hwait : m.state.terminal = false → m.state.blocking = true → Q ⟨none, m.cycles, []⟩ m)
    (hact : m.Active → Ends fetch (fun word t =>
        Ends (Core.execute (t.decode word)) (fun _ c =>
          Ends (Trace.notify (t.report (t.decode word) c))
            (fun _ trace => Q (t.report (t.decode word) c) { t.executed c with trace := trace })
            (fun f trace => E f { t.executed c with trace := trace }) t.trace)
          (fun f c => E f { t with core := c }) t.core) E m.cleared) : Ends step Q E m := by
  cases ht : m.state.terminal with
  | true =>
    rw [Ends, step_terminal ht]
    exact hstop ht
  | false =>
    cases hb : m.state.blocking with
    | true =>
      rw [Ends, step_blocking ht hb]
      exact hwait ht hb
    | false => exact (ends_step_active ⟨ht, hb⟩).2 (hact ⟨ht, hb⟩)

theorem ends_readInstruction {b : Bus} (hb : b.layout.MemoryOnly) (address : Int) :
    Ends (readInstruction address) (fun _ t => t.layout = b.layout) (fun _ t => t.layout = b.layout)
      b := by
  rw [readInstruction, ends_bind]
  refine (Bus.ends_read hb address).imp (fun high t ht => ?_) fun _ t ht => congrArg Bus.layout ht
  rw [ends_bind]
  refine (Bus.ends_read (ht.2 ▸ hb) (address + 1)).imp (fun low u hu => ?_) fun _ u hu => ?_
  · exact hu.2.trans ht.2
  · exact (congrArg Bus.layout hu).trans ht.2

def Sound (L : Layout) (m : Machine) : Prop := m.core.Sound L

variable {L : Layout}

theorem fetch_sound (hL : L.MemoryOnly) (hm : m.Sound L) :
    Ends fetch (fun _ t => t.core.Ready L) (fun _ t => t.Sound L) m := by
  rw [ends_fetch]
  by_cases hp : (0 ≤ m.state.pc ∧ m.state.pc < State.memorySize) ∧ m.state.pc % 2 = 0
  · rw [if_pos hp]
    refine (ends_readInstruction (hm.layout ▸ hL) m.state.pc).imp (fun d b hb => ?_) fun f b hb => ?_
    · exact ⟨⟨hm.state, hp.1.2⟩, hb.trans hm.layout⟩
    · exact ⟨hm.state, hb.trans hm.layout⟩
  · rw [if_neg hp]
    exact hm

theorem step_keeps (hL : L.MemoryOnly) : Keeps (Sound L) step := by
  intro m hm
  refine ends_step (fun _ => hm) (fun _ _ => hm) fun _ => ?_
  have hclear : m.cleared.Sound L := ⟨hm.state, hm.layout⟩
  refine (fetch_sound hL hclear).imp (fun word t hr => ?_) fun f t hs => hs
  refine (Core.execute_sound hL (t.decode word) hr).imp (fun _ c hc => ?_) fun f c hc => hc
  exact Ends.of_forall (fun _ _ _ => ⟨hc.state, hc.layout⟩) fun _ _ _ => ⟨hc.state, hc.layout⟩

end Machine

end SpriteVM
