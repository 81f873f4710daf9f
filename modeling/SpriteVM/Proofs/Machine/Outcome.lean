import SpriteVM.Proofs.Machine.Cycle
import SpriteVM.Proofs.Machine.Notify

namespace SpriteVM

/-- The counter is at an instruction. -/
def State.Fetchable (s : State) : Prop := (0 ≤ s.pc ∧ s.pc < memorySize) ∧ s.pc % 2 = 0

instance (s : State) : Decidable s.Fetchable := inferInstanceAs (Decidable (_ ∧ _))

namespace Machine

variable {m : Machine} {b t : Bus} {d : Instruction} {address : Int}

/-- The outcomes of a cycle. A failure keeps what was done before it: the record emptied, the
instruction fetched, and whatever the instruction did up to the place where it failed. -/
inductive CycleOutcome (m : Machine) : EStateM.Result Fault Machine Snapshot → Prop
  | stopped (ht : m.state.terminal = true) : CycleOutcome m (.error (.stopped m.state.halted) m)
  | waiting (ht : m.state.terminal = false) (hb : m.state.blocking = true) :
    CycleOutcome m (.ok ⟨none, m.cycles, []⟩ m)
  | counter (ha : m.Active) (hp : ¬ m.state.Fetchable) :
    CycleOutcome m (.error (.counter m.state.pc) m.cleared)
  | unreadable (ha : m.Active) (hp : m.state.Fetchable) {f : Fault} {b : Bus}
    (hr : readInstruction m.state.pc m.cleared.bus = .error f b) :
    CycleOutcome m (.error f { m with core := ⟨m.state, b⟩ })
  | failed (ha : m.Active) (hp : m.state.Fetchable) {d : Instruction} {b : Bus} {f : Fault} {c : Core}
    (hr : readInstruction m.state.pc m.cleared.bus = .ok d b)
    (he : Core.execute d ⟨m.state, b⟩ = .error f c) :
    CycleOutcome m (.error f { m with core := c, fetched := some d })
  | hookFailed (ha : m.Active) (hp : m.state.Fetchable) {d : Instruction} {b : Bus} {c : Core}
    {f : Fault} {trace : Trace} (hr : readInstruction m.state.pc m.cleared.bus = .ok d b)
    (he : Core.execute d ⟨m.state, b⟩ = .ok () c)
    (hn : Trace.notify (m.report d c) m.trace = .error f trace) :
    CycleOutcome m (.error f { m.executed c with fetched := some d, trace := trace })
  | done (ha : m.Active) (hp : m.state.Fetchable) {d : Instruction} {b : Bus} {c : Core}
    {trace : Trace} (hr : readInstruction m.state.pc m.cleared.bus = .ok d b)
    (he : Core.execute d ⟨m.state, b⟩ = .ok () c)
    (hn : Trace.notify (m.report d c) m.trace = .ok () trace) :
    CycleOutcome m (.ok (m.report d c) { m.executed c with fetched := some d, trace := trace })

theorem readInstruction_eq_ok (h : readInstruction address b = .ok d t) :
    ∃ high low b', Bus.read address b = .ok high b' ∧ Bus.read (address + 1) b' = .ok low t ∧
      d = Instruction.decode (Bits.or (high * 256) low) address := by
  unfold readInstruction at h
  obtain ⟨high, b', hh, h⟩ := bind_eq_ok.1 h
  obtain ⟨low, u, hl, h⟩ := bind_eq_ok.1 h
  obtain ⟨rfl, rfl⟩ := EStateM.Result.ok.inj h
  exact ⟨high, low, b', hh, hl, rfl⟩

/-- What was fetched is what is executed. -/
theorem decode_fetched (hf : m.fetched = some d) (ha : d.address = m.state.pc) :
    m.decode d.word = d := by
  unfold decode
  rw [hf]
  exact if_pos ⟨rfl, ha⟩

/-- The cycle of a machine that goes on, with no trace of what was fetched before. -/
theorem ends_cycle {Q : Snapshot → Machine → Prop} {E : Fault → Machine → Prop} (ha : m.Active) :
    Ends step Q E m ↔
      if m.state.Fetchable then
        Ends (readInstruction m.state.pc) (fun d b =>
          Ends (Core.execute d) (fun _ c =>
            Ends (Trace.notify (m.report d c))
              (fun _ trace => Q (m.report d c) { m.executed c with fetched := some d, trace := trace })
              (fun f trace => E f { m.executed c with fetched := some d, trace := trace }) m.trace)
            (fun f c => E f { m with core := c, fetched := some d }) ⟨m.state, b⟩)
          (fun f b => E f { m with core := ⟨m.state, b⟩ }) m.cleared.bus
      else E (.counter m.state.pc) m.cleared := by
  have hcond : m.cleared.state.Fetchable ↔ m.state.Fetchable := Iff.rfl
  rw [State.Fetchable] at hcond
  rw [ends_step_active ha, ends_fetch]
  by_cases hp : m.state.Fetchable
  · rw [if_pos (hcond.2 hp), if_pos hp]
    refine Ends.congr_ok (fun d b hr => ?_) fun _ _ => Iff.rfl
    have haddress : d.address = m.state.pc := by
      obtain ⟨high, low, b', -, -, rfl⟩ := readInstruction_eq_ok hr
      rfl
    have hdecode : ({ m.cleared with core := ⟨m.cleared.state, b⟩, fetched := some d } :
        Machine).decode d.word = d := decode_fetched rfl haddress
    rw [hdecode]
    exact Iff.rfl
  · rw [if_neg fun h => hp (hcond.1 h), if_neg hp]
    exact Iff.rfl

theorem step_outcome (m : Machine) : CycleOutcome m m.step := by
  by_cases ha : m.Active
  · refine ends_self.1 ((ends_cycle ha).2 ?_)
    by_cases hp : m.state.Fetchable
    · rw [if_pos hp]
      refine Ends.of_forall (fun d b hr => ?_) fun f b hr => .unreadable ha hp hr
      refine Ends.of_forall (fun _ c he => ?_) fun f c he => .failed ha hp hr he
      exact Ends.of_forall (fun _ _ hn => .done ha hp hr he hn) fun _ _ hn => .hookFailed ha hp hr he hn
    · rw [if_neg hp]
      exact .counter ha hp
  · cases ht : m.state.terminal with
    | true =>
      rw [step_terminal ht]
      exact .stopped ht
    | false =>
      have hb : m.state.blocking = true := by simpa [Active, ht] using ha
      rw [step_blocking ht hb]
      exact .waiting ht hb

/-- A cycle that reports an instruction read it at the counter, executed it, and told the hooks. -/
theorem step_eq_ok {s : Snapshot} {t : Machine} (hs : m.step = .ok s t) (hd : s.executed = some d) :
    m.Active ∧ m.state.Fetchable ∧ ∃ b c trace,
      readInstruction m.state.pc m.cleared.bus = .ok d b ∧
      Core.execute d ⟨m.state, b⟩ = .ok () c ∧ Trace.notify (m.report d c) m.trace = .ok () trace ∧
      s = m.report d c ∧ t = { m.executed c with fetched := some d, trace := trace } := by
  have ho := step_outcome m
  rw [hs] at ho
  cases ho with
  | waiting => exact nomatch hd
  | done ha hp hr he hn =>
    obtain rfl := Option.some.inj hd
    exact ⟨ha, hp, _, _, _, hr, he, hn, rfl, rfl⟩

section Fetched

variable (ha : m.Active) (hp : m.state.Fetchable)
  (hr : readInstruction m.state.pc m.cleared.bus = .ok d b)

include ha hp hr

theorem step_of_execute_error {f : Fault} {c : Core}
    (he : Core.execute d ⟨m.state, b⟩ = .error f c) :
    m.step = .error f { m with core := c, fetched := some d } := by
  refine (ends_self (P := (· = _))).1 ((ends_cycle ha).2 ?_)
  rw [if_pos hp, Ends, hr]
  dsimp only
  rw [Ends, he]

theorem step_of_execute_ok {c : Core} (hcalm : m.trace.Calm)
    (he : Core.execute d ⟨m.state, b⟩ = .ok () c) : ∃ s t, m.step = .ok s t := by
  have hnotify := Trace.ends_notify (P := True) hcalm (fun _ => trivial) (m.report d c)
  cases hn : Trace.notify (m.report d c) m.trace with
  | error f trace => exact (hnotify.error hn).elim
  | ok _ trace =>
    refine ⟨m.report d c, { m.executed c with fetched := some d, trace := trace }, ?_⟩
    refine (ends_self (P := (· = _))).1 ((ends_cycle ha).2 ?_)
    rw [if_pos hp, Ends, hr]
    dsimp only
    rw [Ends, he]
    dsimp only
    rw [Ends, hn]

/-- Unless a hook fails, a cycle returns exactly if the instruction it fetched does. -/
theorem step_returns_iff (hcalm : m.trace.Calm) :
    (∃ s t, m.step = .ok s t) ↔ ∃ c, Core.execute d ⟨m.state, b⟩ = .ok () c := by
  cases he : Core.execute d ⟨m.state, b⟩ with
  | ok _ c => simpa using step_of_execute_ok ha hp hr hcalm he
  | error f c => simp [step_of_execute_error ha hp hr he]

end Fetched

/-- A cycle comes to what the relation says and to nothing else. -/
theorem CycleOutcome.step_eq {r : EStateM.Result Fault Machine Snapshot} (h : CycleOutcome m r) :
    m.step = r := by
  cases h with
  | stopped ht => exact step_terminal ht
  | waiting ht hb => exact step_blocking ht hb
  | counter ha hp =>
    refine (ends_self (P := (· = _))).1 ((ends_cycle ha).2 ?_)
    rw [if_neg hp]
  | unreadable ha hp hr =>
    refine (ends_self (P := (· = _))).1 ((ends_cycle ha).2 ?_)
    rw [if_pos hp, Ends, hr]
  | failed ha hp hr he => exact step_of_execute_error ha hp hr he
  | hookFailed ha hp hr he hn | done ha hp hr he hn =>
    refine (ends_self (P := (· = _))).1 ((ends_cycle ha).2 ?_)
    rw [if_pos hp, Ends, hr]
    dsimp only
    rw [Ends, he]
    dsimp only
    rw [Ends, hn]

/-- The next cycle executes this instruction: the machine goes on, and reads it at the counter. -/
def Fetching (m : Machine) (d : Instruction) : Prop :=
  m.Active ∧ m.state.Fetchable ∧ ∃ b, readInstruction m.state.pc m.cleared.bus = .ok d b

theorem Fetching.address_eq (h : m.Fetching d) : d.address = m.state.pc := by
  obtain ⟨-, -, b, hr⟩ := h
  obtain ⟨high, low, b', -, -, rfl⟩ := readInstruction_eq_ok hr
  rfl

section Fetched

variable (ha : m.Active) (hp : m.state.Fetchable)
  (hr : readInstruction m.state.pc m.cleared.bus = .ok d b)

include ha hp hr

/-- What an instruction that ends leaves behind, also where a hook fails after it. -/
theorem left_step_of_execute_ok {c : Core} (he : Core.execute d ⟨m.state, b⟩ = .ok () c) :
    ∃ trace, left m.step = { m.executed c with fetched := some d, trace := trace } := by
  cases hn : Trace.notify (m.report d c) m.trace with
  | ok _ trace => exact ⟨trace, congrArg left (CycleOutcome.done ha hp hr he hn).step_eq⟩
  | error f trace => exact ⟨trace, congrArg left (CycleOutcome.hookFailed ha hp hr he hn).step_eq⟩

theorem left_step_of_execute_error {f : Fault} {c : Core}
    (he : Core.execute d ⟨m.state, b⟩ = .error f c) :
    left m.step = { m with core := c, fetched := some d } :=
  congrArg left (step_of_execute_error ha hp hr he)

/-- What a cycle read at the counter is the instruction fetched last, whatever came of it. -/
theorem left_step_fetched : (left m.step).fetched = some d := by
  cases he : Core.execute d ⟨m.state, b⟩ with
  | ok _ c =>
    obtain ⟨trace, hleft⟩ := left_step_of_execute_ok ha hp hr he
    rw [hleft]
  | error f c => rw [left_step_of_execute_error ha hp hr he]

end Fetched

/-- A cycle changes the state by the instruction that it executes, if it comes to one. -/
theorem left_step_state (m : Machine) :
    (left m.step).state = m.state ∨ ∃ d b, m.Active ∧ m.state.Fetchable ∧
      readInstruction m.state.pc m.cleared.bus = .ok d b ∧
      (left m.step).state = (left (Core.execute d ⟨m.state, b⟩)).state := by
  have ho := step_outcome m
  generalize m.step = r at ho ⊢
  cases ho with
  | stopped | waiting | counter | unreadable => exact .inl rfl
  | failed ha hp hr he | hookFailed ha hp hr he | done ha hp hr he =>
    refine .inr ⟨_, _, ha, hp, hr, ?_⟩
    rw [he]
    rfl

/-- A machine that goes on takes what stands at the counter, or its cycle fails as the reading does. -/
theorem step_reads (ha : m.Active) (hp : m.state.Fetchable) :
    Ends (readInstruction m.state.pc) (fun d _ => (left m.step).fetched = some d)
      (fun f _ => ∃ t, m.step = .error f t) m.cleared.bus :=
  Ends.of_forall (fun _ _ hr => left_step_fetched ha hp hr)
    fun _ _ hr => ⟨_, (CycleOutcome.unreadable ha hp hr).step_eq⟩

/-- A cycle that reports no instruction leaves the machine as it was, waiting for a key. -/
theorem step_eq_waiting {s : Snapshot} {t : Machine} (hs : m.step = .ok s t)
    (hd : s.executed = none) : t = m ∧ m.state.blocking = true := by
  have ho := step_outcome m
  rw [hs] at ho
  cases ho with
  | waiting _ hb => exact ⟨rfl, hb⟩
  | done => exact nomatch hd

end Machine

end SpriteVM
