import SpriteVM.Proofs.Instruction.Decode
import SpriteVM.Proofs.Machine.Between
import SpriteVM.Proofs.Machine.Outcome
import SpriteVM.Proofs.Machine.Parts

namespace SpriteVM

/-- Whether the machine halted, whether it came to an unknown word, and whether it waits for a key. -/
def State.stops (s : State) : List Bool := [s.halted, s.quit, s.blocking]

/-- What an instruction of a kind brings about of these. -/
def Kind.stops (k : Kind) : List Bool := [k = .halt, k = .unknown, k = .waitKey]

theorem Kind.stops_count (k : Kind) : k.stops.count true ≤ 1 := by
  cases k <;> decide

theorem State.terminal_iff {s : State} :
    s.terminal = true ↔ s.halted = true ∨ s.quit = true := Bool.or_eq_true_iff

namespace Core

theorem execute_stops (d : Instruction) {c : Core} (h : c.state.stops = [false, false, false]) :
    (left (execute d c)).state.stops = d.kind.stops := by
  have hwrites := ends_left.1 (execute_writes d c)
  have hsame (hfree : ∀ p ∈ [.halted, .quit, .blocking], p ∉ d.kind.writes) :
      (left (execute d c)).state.stops = c.state.stops := by
    have hhalted : (left (execute d c)).state.halted = c.state.halted :=
      hwrites .halted (hfree _ (by simp))
    have hquit : (left (execute d c)).state.quit = c.state.quit := hwrites .quit (hfree _ (by simp))
    have hblocking : (left (execute d c)).state.blocking = c.state.blocking :=
      hwrites .blocking (hfree _ (by simp))
    rw [State.stops, State.stops, hhalted, hquit, hblocking]
  cases hk : d.kind with
  | halt | unknown | waitKey =>
    rw [execute, hk]
    simp_all [State.stops, Kind.stops, change, advance, bind_apply, left]
  | _ =>
    rw [hsame (by simp [hk, Kind.writes]), h]
    rfl

/-- A stop stays where it is. -/
theorem execute_stopped_pc {d : Instruction} (hk : d.kind = .halt ∨ d.kind = .unknown) (c : Core) :
    (left (execute d c)).state.pc = c.state.pc := by
  have hwrites := ends_left.1 (execute_writes d c)
  refine hwrites .pc ?_
  obtain hk | hk := hk <;> simp [hk, Kind.writes]

end Core

namespace Machine

variable {m : Machine} {d : Instruction}

/-- The next cycle executes `d`, and after it the machine is stopped or held up as the kind of the
instruction says. -/
structure StopsBy (m : Machine) (d : Instruction) : Prop where
  fetching : m.Fetching d
  stops : (left m.step).state.stops = d.kind.stops
  pc : d.kind = .halt ∨ d.kind = .unknown → (left m.step).state.pc = d.address

theorem Active.stops (ha : m.Active) : m.state.stops = [false, false, false] := by
  obtain ⟨ht, hb⟩ := ha
  obtain ⟨hh, hq⟩ := Bool.or_eq_false_iff.1 ht
  rw [State.stops, hh, hq, hb]

/-- A cycle stops the machine or holds it up by its instruction alone. -/
theorem step_stops (m : Machine) :
    (left m.step).state.stops = m.state.stops ∨ ∃ d, m.StopsBy d := by
  obtain hs | ⟨d, b, ha, hp, hr, hs⟩ := left_step_state m
  · rw [hs]
    exact .inl rfl
  · have hf : m.Fetching d := ⟨ha, hp, b, hr⟩
    refine .inr ⟨d, hf, ?_, fun hk => ?_⟩
    · rw [hs]
      exact Core.execute_stops d ha.stops
    · rw [hs, hf.address_eq]
      exact Core.execute_stopped_pc hk _

/-- The word of the instruction tells how it stops the machine, if it does. -/
theorem StopsBy.word (h : m.StopsBy d) :
    let t := left m.step
    (t.state.halted = true ↔ d.word = 0xFFFF) ∧
      (t.state.quit = true ↔ ∀ e ∈ Instruction.table, e.fits d.word = false) ∧
      (t.state.terminal = true → t.state.pc = d.address) := by
  intro t
  have hstops := h.stops
  simp only [State.stops, Kind.stops, List.cons.injEq] at hstops
  obtain ⟨hhalted, hquit, -⟩ := hstops
  have hhalted : t.state.halted = true ↔ d.kind = .halt := by rw [hhalted, decide_eq_true_iff]
  have hquit : t.state.quit = true ↔ d.kind = .unknown := by rw [hquit, decide_eq_true_iff]
  obtain ⟨-, -, b, hr⟩ := h.fetching
  obtain ⟨high, low, b', -, -, rfl⟩ := readInstruction_eq_ok hr
  refine ⟨hhalted.trans Instruction.decode_halt_iff, hquit.trans Instruction.decode_unknown_iff, ?_⟩
  intro ht
  rw [State.terminal_iff, hhalted, hquit] at ht
  exact h.pc ht

/-- A reset begins with the state that the seed gives. -/
theorem left_reset_state (m : Machine) : (left (reset m)).state = State.initial m.seed := by
  obtain ⟨b, hb⟩ := left_reset m
  rw [hb]
  rfl

end Machine

namespace HostAction

variable {a : HostAction} {m : Machine}

/-- Of halting, an unknown word and a wait there is one at most, whatever a host does. -/
theorem act_stops (h : m.state.stops.count true ≤ 1) :
    (left (a.act m)).state.stops.count true ≤ 1 := by
  by_cases hs : a = .step
  · subst hs
    rw [act, left_map]
    obtain hsame | ⟨d, hd⟩ := m.step_stops
    · rwa [hsame]
    · rw [hd.stops]
      exact d.kind.stops_count
  · by_cases hr : a = .reset
    · subst hr
      rw [act, left_map, Machine.left_reset_state]
      exact Nat.zero_le 1
    · have hchange := act_changes hs hr m
      have hblocking := act_blocking (m := m) hs hr
      rw [State.stops, hchange.halted, hchange.quit]
      rw [State.stops] at h
      revert h hblocking
      generalize m.state.halted = halted, m.state.quit = quit, m.state.blocking = before,
        (left (a.act m)).state.blocking = after
      revert halted quit before after
      decide

/-- A machine that has stopped stays where it is, unless it is reset. -/
theorem act_stopped (hr : a ≠ .reset) (ht : m.state.terminal = true) :
    let t := left (a.act m)
    t.state.halted = m.state.halted ∧ t.state.quit = m.state.quit ∧ t.state.pc = m.state.pc := by
  by_cases hs : a = .step
  · subst hs
    rw [act, left_map, Machine.step_terminal ht]
    exact ⟨rfl, rfl, rfl⟩
  · have hchange := act_changes hs hr m
    exact ⟨hchange.halted, hchange.quit, hchange.pc⟩

end HostAction

theorem session_stopped {later : List HostAction} {m : Machine} (hr : .reset ∉ later)
    (ht : m.state.terminal = true) :
    let n := session later m
    n.state.halted = m.state.halted ∧ n.state.quit = m.state.quit ∧ n.state.pc = m.state.pc := by
  induction later generalizing m with
  | nil => exact ⟨rfl, rfl, rfl⟩
  | cons a later ih =>
    obtain ⟨ha, hlater⟩ := List.ne_and_not_mem_of_not_mem_cons hr
    obtain ⟨hhalted, hquit, hpc⟩ := HostAction.act_stopped (Ne.symm ha) ht
    have hterm : (left (a.act m)).state.terminal = true := by
      rwa [State.terminal, hhalted, hquit]
    obtain ⟨hhalted', hquit', hpc'⟩ := ih hlater hterm
    exact ⟨hhalted'.trans hhalted, hquit'.trans hquit, hpc'.trans hpc⟩

/-- A session that ends with the machine stopped has a last cycle that stopped it. -/
theorem session_stopped_by {actions : List HostAction} {m₀ : Machine}
    (h₀ : m₀.state.terminal = false) (ht : (session actions m₀).state.terminal = true) :
    ∃ before after d, actions = before ++ .step :: after ∧ .reset ∉ after ∧
      (session before m₀).StopsBy d ∧ (left (session before m₀).step).state.terminal = true := by
  have hreset (m : Machine) : ¬ (left (Machine.reset m)).state.terminal = true := by
    rw [Machine.left_reset_state]
    exact Bool.false_ne_true
  have hother (a : HostAction) (m : Machine) (hs : a ≠ .step) (hr : a ≠ .reset)
      (h : (left (a.act m)).state.terminal = true) : m.state.terminal = true := by
    have hchange := HostAction.act_changes hs hr m
    rwa [State.terminal, hchange.halted, hchange.quit] at h
  have hgoing : ¬ m₀.state.terminal = true := by simp [h₀]
  obtain ⟨before, after, hactions, hr, hnot, hstop⟩ :=
    session_last (P := fun m => m.state.terminal = true) hreset hother hgoing ht
  obtain hsame | ⟨d, hd⟩ := (session before m₀).step_stops
  · simp only [State.stops, List.cons.injEq] at hsame
    rw [State.terminal, hsame.1, hsame.2.1] at hstop
    exact absurd hstop hnot
  · exact ⟨before, after, d, hactions, hr, hd, hstop⟩

/-- A machine halted, met an unknown word or waits, one of them at most; one that stopped stays at the
word that stopped it, and refuses every cycle until a reset. -/
theorem session_stops {b : Bus} {seed : Int} {m₀ : Machine} (h₀ : Machine.create b seed = .ok m₀)
    (actions : List HostAction) :
    let m := session actions m₀
    [m.state.halted, m.state.quit, m.state.blocking].count true ≤ 1 ∧
      (m.state.halted = true ∨ m.state.quit = true →
        (∃ before after d, actions = before ++ .step :: after ∧ .reset ∉ after ∧
          (session before m₀).Fetching d ∧
          (left (session before m₀).step).state.terminal = true ∧ m.state.pc = d.address ∧
          (m.state.halted = true ↔ d.word = 0xFFFF) ∧
          (m.state.quit = true ↔ ∀ e ∈ Instruction.table, e.fits d.word = false)) ∧
        ∀ later, .reset ∉ later →
          let n := session later m
          n.state.halted = m.state.halted ∧ n.state.quit = m.state.quit ∧
            n.state.pc = m.state.pc ∧ ∃ f, n.step = .error f n ∧ f.kind = .machineStopped ∧
              f.message = "Cannot step a machine that has " ++
                (if m.state.halted then "halted" else "quit") ++ ".") := by
  intro m
  obtain ⟨u, -, hm₀⟩ := Machine.create_eq_ok.1 h₀
  have hgoing : m₀.state.terminal = false := by
    rw [hm₀]
    rfl
  constructor
  · have hkeeps (a : HostAction) :
        Keeps (fun m : Machine => m.state.stops.count true ≤ 1) a.act :=
      fun _ h => ends_left.2 (HostAction.act_stops h)
    refine session_keeps (fun a _ => hkeeps a) ?_
    rw [hm₀]
    exact Nat.zero_le 1
  · intro hstopped
    have ht : m.state.terminal = true := State.terminal_iff.2 hstopped
    constructor
    · obtain ⟨before, after, d, hactions, hr, hd, hterm⟩ := session_stopped_by hgoing ht
      have hm : m = session after (left (session before m₀).step) := by
        rw [← left_map Machine.step Reply.report]
        exact (congrArg (session · m₀) hactions).trans (session_append before (.step :: after) m₀)
      obtain ⟨hhalted, hquit, hpc⟩ := session_stopped hr hterm
      rw [← hm] at hhalted hquit hpc
      obtain ⟨hword, hunknown, haddress⟩ := hd.word
      exact ⟨before, after, d, hactions, hr, hd.fetching, hterm, hpc.trans (haddress hterm),
        hhalted ▸ hword, hquit ▸ hunknown⟩
    · intro later hr
      obtain ⟨hhalted, hquit, hpc⟩ := session_stopped hr ht
      have hterm : (session later m).state.terminal = true := by
        rwa [State.terminal, hhalted, hquit]
      refine ⟨hhalted, hquit, hpc, _, Machine.step_terminal hterm, rfl, ?_⟩
      rw [hhalted]
      rfl

/-- A word that no template fits, and what a host may try after it. -/
def afterUnknown : List HostAction :=
  [.load [0x00, 0xFF, 0xFF, 0xFF], .step, .setKey 3 true, .resolveKey, .load [0x00, 0x00], .tick]

theorem session_stops_afterUnknown : ∃ m₀, Machine.create Bus.blank 7 = .ok m₀ ∧
    let m := session afterUnknown m₀
    let n := session [.step, .busWrite 0x200 0] m
    m.state.quit = true ∧ m.state.halted = false ∧ m.state.pc = 0x200 ∧
      ∃ f, n.step = .error f n ∧ f.message = "Cannot step a machine that has quit." := by
  obtain ⟨m₀, h₀, hrun⟩ := Machine.exists_created Bus.blank 7 (fun m₀ =>
    let m := session afterUnknown m₀
    decide (m.state.quit = true ∧ m.state.halted = false ∧ m.state.pc = 0x200)) (by decide +kernel)
  obtain ⟨hquit, hhalted, hpc⟩ := of_decide_eq_true hrun
  obtain ⟨-, hlater⟩ := (session_stops h₀ afterUnknown).2 (.inr hquit)
  obtain ⟨-, -, -, f, hs, -, hmessage⟩ := hlater [.step, .busWrite 0x200 0] (by decide)
  rw [hhalted] at hmessage
  exact ⟨m₀, h₀, hquit, hhalted, hpc, f, hs, hmessage⟩

end SpriteVM
