import SpriteVM.Proofs.Machine.CallStack
import SpriteVM.Proofs.Machine.Halfway
import SpriteVM.Proofs.Machine.Stopped

namespace SpriteVM

/-- The kinds of instructions that send the counter to a target. -/
def Kind.transfers : List Kind := [.ret, .jump, .call, .jumpOffset]

/-- The families of faults that these instructions run into: a target, a full stack or an empty one. -/
def Kind.transferFaults : List FaultClass := [.programCounter, .stackOverflow, .stackUnderflow]

namespace State

variable {s t : State} {calls rest : List Int} {address : Int}

/-- A place behind an instruction of the memory, as calls leave it on the stack. -/
def ReturnPlace (address : Int) : Prop := (2 ≤ address ∧ address ≤ 0x1000) ∧ address % 2 = 0

/-- The part of the call stack in use holds nothing but what calls have left there. -/
def Linked (s : State) : Prop := ∃ calls, s.Stacks calls ∧ ∀ address ∈ calls, ReturnPlace address

/-- The latest call stood in the last place of the memory: there is no instruction to return to. -/
def ReturnsToEnd (s : State) : Prop := ∃ k : Fin 16, s.sp = k.val + 1 ∧ s.stack.get k = 0x1000

theorem Stacks.top (h : s.Stacks (address :: rest)) : ∃ k : Fin 16, s.sp = k.val + 1 ∧
    s.stack.get k = address ∧ ({ s with sp := k.val } : State).Stacks rest := by
  obtain ⟨t, hpop, ht⟩ := h.pop_top
  have hroom : rest.length < 16 := h.room
  have hsp : s.sp = (⟨rest.length, hroom⟩ : Fin 16).val + 1 := by simp [h.sp]
  rw [State.pop_top hsp] at hpop
  obtain ⟨htop, rfl⟩ := EStateM.Result.ok.inj hpop
  exact ⟨_, hsp, htop, ht⟩

theorem initial_linked (seed : Int) : (initial seed).Linked :=
  ⟨[], .empty rfl, fun _ h => absurd h List.not_mem_nil⟩

/-- It is a matter of the stack and its pointer only. -/
theorem Linked.congr (h : s.Linked) (hsp : t.sp = s.sp) (hstack : t.stack = s.stack) : t.Linked := by
  obtain ⟨calls, hcalls, hplaces⟩ := h
  exact ⟨calls, hcalls.congr hsp hstack, hplaces⟩

theorem Linked.empty_or_top (h : s.Linked) : s.sp = 0 ∨ ∃ k : Fin 16, s.sp = k.val + 1 ∧
    ReturnPlace (s.stack.get k) ∧ ({ s with sp := k.val } : State).Linked := by
  obtain ⟨calls, hcalls, hplaces⟩ := h
  cases calls with
  | nil => exact .inl hcalls.sp
  | cons address rest =>
    obtain ⟨k, hsp, rfl, hrest⟩ := hcalls.top
    refine .inr ⟨k, hsp, hplaces _ List.mem_cons_self, rest, hrest, fun a ha => ?_⟩
    exact hplaces a (List.mem_cons_of_mem _ ha)

end State

/-- After an instruction of the memory there is still nothing on the stack but places behind one. -/
theorem Instruction.follow_places {d : Instruction} {s : State} {calls : List Int}
    (hp : s.Fetchable) (h : ∀ address ∈ calls, State.ReturnPlace address) :
    ∀ address ∈ d.follow s.pc calls, State.ReturnPlace address := by
  intro address ha
  unfold follow at ha
  split at ha
  · obtain rfl | ha := List.mem_cons.1 ha
    · obtain ⟨⟨hlo, hhi⟩, heven⟩ := hp
      unfold State.memorySize at hhi
      unfold State.ReturnPlace
      omega
    · exact h address ha
  · exact h address (List.mem_of_mem_tail ha)
  · exact h address ha

/-- A return that finds the end of the memory on the stack. -/
def Instruction.Strands (d : Instruction) (s : State) : Prop := d.kind = .ret ∧ s.ReturnsToEnd

/-- What an instruction that failed in the state `s` left of it in `t`. -/
structure Instruction.RolledBack (d : Instruction) (s t : State) : Prop where
  kept : ¬ d.Strands s → t = s
  popped : d.Strands s → t = { s with sp := s.sp - 1 }

namespace Core

variable {c t : Core} {d : Instruction} {f : Fault}

theorem ChangesOnly.eq_of_nil (h : ChangesOnly [] c t) : t = c := by
  obtain ⟨s, b⟩ := c
  obtain ⟨s', b'⟩ := t
  have hparts := changesOnly_iff.1 h
  cases s
  cases s'
  simp_all

/-- The address is taken from the stack before anybody looks at it. -/
theorem ret_stranded (h : c.state.ReturnsToEnd) : ret c =
    .error (.targetOutside 0x1000 c.state.pc) ⟨{ c.state with sp := c.state.sp - 1 }, c.bus⟩ := by
  obtain ⟨k, hsp, htop⟩ := h
  have htop : c.state.stack[k] = 0x1000 := htop
  have hout : ¬ ((0 : Int) ≤ 0x1000 ∧ (0x1000 : Int) < State.memorySize) := by decide
  refine (ends_self (P := (· = _))).1 ?_
  rw [ret, ends_bind, ends_onState, Ends, State.pop_top hsp]
  dsimp only
  rw [ends_jumpTo, htop, if_neg hout, hsp, Int.add_sub_cancel]

theorem ret_rolledBack (hc : c.state.Linked) :
    Ends ret (fun _ _ => True)
      (fun f t => f.kind ∈ Kind.transferFaults ∧ (¬ c.state.ReturnsToEnd → t = c)) c := by
  rw [ret, ends_bind, ends_onState]
  obtain hempty | ⟨k, hsp, hplace, -⟩ := hc.empty_or_top
  · rw [Ends, State.pop_empty hempty]
    exact ⟨by simp [Kind.transferFaults, Fault.kind], fun _ => rfl⟩
  · obtain ⟨⟨hlo, hhi⟩, heven⟩ := hplace
    have htop : c.state.stack.get k = c.state.stack[k] := rfl
    rw [htop] at hlo hhi heven
    rw [Ends, State.pop_top hsp]
    dsimp only
    rw [ends_jumpTo, if_pos heven]
    split_ifs with hin
    refine ⟨List.mem_cons_self, fun hnot => absurd ⟨k, hsp, ?_⟩ hnot⟩
    unfold State.memorySize at hin
    omega

theorem jumpTo_fails (target : Int) (c : Core) :
    Ends (jumpTo target) (fun _ _ => True) (fun f _ => f.kind ∈ Kind.transferFaults) c := by
  rw [ends_jumpTo]
  split_ifs <;> simp [Kind.transferFaults, Fault.kind]

theorem call_fails (hc : c.state.Linked) (target : Int) :
    Ends (call target) (fun _ _ => True) (fun f _ => f.kind ∈ Kind.transferFaults) c := by
  obtain ⟨calls, hcalls, -⟩ := hc
  rw [call, ends_bind, ends_checkTarget]
  split_ifs
  · rw [ends_bind, ends_read, ends_bind, ends_onState]
    by_cases hfree : calls.length < 16
    · obtain ⟨s, hs, -⟩ := hcalls.push_free hfree (c.state.pc + 2)
      rw [Ends, hs]
      exact jumpTo_fails target _
    · rw [Ends, hcalls.push_full hfree]
      simp [Kind.transferFaults, Fault.kind]
  · exact List.mem_cons_self
  · exact List.mem_cons_self

/-- A jump or a call looks at everything before it moves anything, a return does not. -/
theorem execute_rolledBack (hk : d.kind ∈ Kind.transfers) (hc : c.state.Linked) :
    Ends (execute d) (fun _ _ => True)
      (fun f t => f.kind ∈ Kind.transferFaults ∧ d.RolledBack c.state t.state ∧ t.bus = c.bus) c := by
  by_cases hret : d.kind = .ret
  · rw [execute_ret hret]
    by_cases hend : c.state.ReturnsToEnd
    · rw [Ends, ret_stranded hend]
      exact ⟨List.mem_cons_self, ⟨fun hnot => absurd ⟨hret, hend⟩ hnot, fun _ => rfl⟩, rfl⟩
    · refine (ret_rolledBack hc).imp (fun _ _ h => h) fun f t h => ?_
      obtain ⟨hf, hsame⟩ := h
      obtain rfl := hsame hend
      exact ⟨hf, ⟨fun _ => rfl, fun hnot => absurd hnot.2 hend⟩, rfl⟩
  · have hspoils : d.kind.spoils = [] := by
      cases hd : d.kind <;> simp_all [Kind.transfers, Kind.spoils]
    have hfails : Ends (execute d) (fun _ _ => True) (fun f _ => f.kind ∈ Kind.transferFaults) c := by
      unfold execute
      cases hd : d.kind with
      | jump => exact jumpTo_fails d.nnn c
      | call => exact call_fails hc d.nnn
      | jumpOffset => exact jumpTo_fails _ c
      | _ => simp_all [Kind.transfers]
    have hspoiled := Spoils.execute d c
    rw [hspoils] at hspoiled
    refine (hfails.and hspoiled).imp (fun _ _ _ => trivial) fun f t h => ?_
    obtain ⟨hf, hsame⟩ := h
    obtain rfl := hsame.eq_of_nil
    exact ⟨hf, ⟨fun _ => rfl, fun hnot => absurd hnot.1 hret⟩, rfl⟩

/-- Whatever comes of an instruction of the memory, the stack holds places that calls have left. -/
theorem execute_linked (d : Instruction) (hp : c.state.Fetchable) (hc : c.state.Linked) :
    Ends (execute d) (fun _ t => t.state.Linked) (fun _ t => t.state.Linked) c := by
  obtain ⟨calls, hcalls, hplaces⟩ := hc
  refine Ends.of_forall (fun _ t h => ?_) fun f t h => ?_
  · exact ⟨_, (execute_stacks d hcalls).ok h, Instruction.follow_places hp hplaces⟩
  · have hc : c.state.Linked := ⟨calls, hcalls, hplaces⟩
    by_cases hret : d.kind = .ret
    · have hback := ((execute_rolledBack (by simp [hret, Kind.transfers]) hc).error h).2.1
      by_cases hstrands : d.Strands c.state
      · obtain hempty | ⟨k, hsp, -, hrest⟩ := hc.empty_or_top
        · obtain ⟨-, k, hsp, -⟩ := hstrands
          omega
        · rw [hback.popped hstrands, hsp, Int.add_sub_cancel]
          exact hrest
      · rwa [hback.kept hstrands]
    · have hspoiled := (Spoils.execute d c).error h
      have hstack : .stack ∉ d.kind.spoils := fun hmem => by
        simpa using d.kind.spoils_subset hmem
      exact hc.congr (hspoiled .sp (mt Kind.mem_spoils.1 hret)) (hspoiled .stack hstack)

end Core

theorem HostAction.act_linked (a : HostAction) :
    Keeps (fun m : Machine => m.state.Linked) a.act := by
  intro m hm
  apply (ends_left (P := fun m : Machine => m.state.Linked)).2
  by_cases hs : a = .step
  · subst hs
    rw [act, left_map]
    obtain hsame | ⟨d, b, -, hp, -, ht⟩ := m.left_step_state
    · rwa [hsame]
    · rw [ht]
      exact ends_left.1 (Core.execute_linked (c := ⟨m.state, b⟩) d hp hm)
  · by_cases hr : a = .reset
    · subst hr
      rw [act, left_map, Machine.left_reset_state]
      exact State.initial_linked m.seed
    · have hchange := act_changes hs hr m
      exact hm.congr hchange.sp hchange.stack

section Session

variable {b : Bus} {seed : Int} {m₀ : Machine}

theorem session_linked (h₀ : Machine.create b seed = .ok m₀) (actions : List HostAction) :
    (session actions m₀).state.Linked := by
  obtain ⟨u, -, rfl⟩ := Machine.create_eq_ok.1 h₀
  exact session_keeps (I := fun m => m.state.Linked) (fun a _ => a.act_linked)
    (State.initial_linked seed)

/-- An instruction that should go to a target and fails changes nothing; but a return that would go to
the end of the memory has taken its address from the stack. -/
theorem session_transfer_rolledBack (h₀ : Machine.create b seed = .ok m₀)
    (actions : List HostAction) {d : Instruction} (hk : d.kind ∈ Kind.transfers) :
    let m := session actions m₀
    (∀ f t, Core.execute d m.core = .error f t →
        f.kind ∈ Kind.transferFaults ∧ d.RolledBack m.state t.state ∧ t.bus = m.bus) ∧
      (m.Fetching d → ∀ f t, m.step = .error f t → f.kind.isA .machine = true →
        d.RolledBack m.state t.state ∧ t.bus.byte = m.bus.byte ∧ t.cycles = m.cycles) ∧
      (d.Strands m.state →
        ∃ t, Core.execute d m.core = .error (.targetOutside 0x1000 m.state.pc) t) := by
  intro m
  have hm : m.state.Linked := session_linked h₀ actions
  refine ⟨fun f t h => (Core.execute_rolledBack (c := m.core) hk hm).error h, ?step, ?stranded⟩
  case step =>
    rintro ⟨ha, hp, b', hr⟩ f t hs hf
    cases he : Core.execute d ⟨m.state, b'⟩ with
    | error g c =>
      rw [Machine.step_of_execute_error ha hp hr he] at hs
      obtain ⟨rfl, rfl⟩ := EStateM.Result.error.inj hs
      obtain ⟨-, hback, hbus⟩ := (Core.execute_rolledBack (c := ⟨m.state, b'⟩) hk hm).error he
      have hbyte : c.bus.byte = m.bus.byte := by
        rw [hbus]
        exact (Machine.readInstruction_log hr).2
      exact ⟨hback, hbyte, rfl⟩
    | ok _ c =>
      -- an instruction that ended can be followed by the fault of a hook only
      cases hn : Trace.notify (m.report d c) m.trace with
      | ok _ trace =>
        rw [(Machine.CycleOutcome.done ha hp hr he hn).step_eq] at hs
        contradiction
      | error g trace =>
        rw [(Machine.CycleOutcome.hookFailed ha hp hr he hn).step_eq] at hs
        obtain ⟨rfl, -⟩ := EStateM.Result.error.inj hs
        rw [(Machine.notify_family hn).1] at hf
        contradiction
  case stranded =>
    rintro ⟨hret, hend⟩
    rw [Core.execute_ret hret]
    exact ⟨_, Core.ret_stranded (c := m.core) hend⟩

end Session

/-- The machine goes on with an instruction of the kind `k`, and its cycle fails with `f`. -/
def Machine.failsAt (m : Machine) (k : Kind) (f : Fault) : Bool :=
  decide (m.state.terminal = false ∧ m.state.blocking = false ∧ m.state.Fetchable) &&
    decide (m.next.kind = k) && match m.step with
      | .ok _ _ => false
      | .error g _ => decide (g = f)

theorem session_failsAt {m₀ : Machine} (h₀ : Machine.create Bus.blank 7 = .ok m₀)
    {actions : List HostAction} {k : Kind} {f : Fault} (h : (session actions m₀).failsAt k f = true) :
    let m := session actions m₀
    m.Fetching m.next ∧ m.next.kind = k ∧ ∃ t, m.step = .error f t := by
  have hb : (session actions m₀).bus.layout.OneMemory := by
    have hsound : (session actions m₀).Sound Bus.blank.layout :=
      session_keeps (fun a _ => a.act_keeps Bus.blank_oneMemory.memoryOnly) (Machine.create_sound h₀)
    exact hsound.layout ▸ Bus.blank_oneMemory
  generalize session actions m₀ = m at h hb
  simp only [Machine.failsAt, Bool.and_eq_true, decide_eq_true_eq] at h
  obtain ⟨⟨⟨hterminal, hblocking, hp⟩, hk⟩, hs⟩ := h
  refine ⟨Machine.fetching_next hb ⟨hterminal, hblocking⟩ hp, hk, ?_⟩
  cases hr : m.step with
  | ok s t => simp [hr] at hs
  | error g t =>
    rw [hr] at hs
    obtain rfl := of_decide_eq_true hs
    exact ⟨t, rfl⟩

/-- A call to an odd address. -/
def oddCall : List HostAction := [.load [0x22, 0x03]]

theorem session_transfer_rolledBack_oddCall : ∃ m₀, Machine.create Bus.blank 7 = .ok m₀ ∧
    let m := session oddCall m₀
    m.next.kind ∈ Kind.transfers ∧ ∃ t, m.step = .error (.targetOdd 0x203 0x200) t ∧
      t.state = m.state ∧ t.bus.byte = m.bus.byte ∧ t.cycles = m.cycles := by
  obtain ⟨m₀, h₀, hrun⟩ := Machine.exists_created Bus.blank 7
    (fun m₀ => (session oddCall m₀).failsAt .call (.targetOdd 0x203 0x200)) (by decide +kernel)
  obtain ⟨hfetching, hk, t, hs⟩ := session_failsAt h₀ hrun
  have hmem : (session oddCall m₀).next.kind ∈ Kind.transfers := by simp [hk, Kind.transfers]
  obtain ⟨hback, hbyte, hcycles⟩ :=
    (session_transfer_rolledBack h₀ oddCall hmem).2.1 hfetching _ t hs rfl
  have hnot : ¬ (session oddCall m₀).next.Strands (session oddCall m₀).state := fun h =>
    absurd (hk.symm.trans h.1) (by decide)
  exact ⟨m₀, h₀, hmem, t, hs, hback.kept hnot, hbyte, hcycles⟩

/-- A jump to the last place of the memory, from where a call goes to a return. -/
def callAtEnd : List HostAction :=
  [.load [0x1F, 0xFE, 0x00, 0xEE], .busLoad 0xFFE [0x22, 0x02], .step, .step]

/-- There the return fails, and the stack is not as it was. -/
theorem session_transfer_popped : ∃ m₀, Machine.create Bus.blank 7 = .ok m₀ ∧
    let m := session callAtEnd m₀
    m.Fetching m.next ∧ m.next.kind = .ret ∧
      ∃ t, m.step = .error (.targetOutside 0x1000 0x202) t ∧ m.state.sp = 1 ∧ t.state.sp = 0 := by
  obtain ⟨m₀, h₀, hrun⟩ := Machine.exists_created Bus.blank 7 (fun m₀ =>
    let m := session callAtEnd m₀
    m.failsAt .ret (.targetOutside 0x1000 0x202) &&
      decide (m.state.sp = 1 ∧ (left m.step).state.sp = 0)) (by decide +kernel)
  simp only [Bool.and_eq_true, decide_eq_true_eq] at hrun
  obtain ⟨hrun, hsp, hpopped⟩ := hrun
  obtain ⟨hfetching, hk, t, hs⟩ := session_failsAt h₀ hrun
  rw [hs] at hpopped
  exact ⟨m₀, h₀, hfetching, hk, t, hs, hsp, hpopped⟩

end SpriteVM
