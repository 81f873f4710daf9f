import SpriteVM.Proofs.Machine.Between
import SpriteVM.Proofs.Machine.Outcome
import SpriteVM.Proofs.Machine.Parts

namespace SpriteVM

/-- The part of the call stack in use holds these return addresses, the first call lowest. -/
structure State.Stacks (s : State) (calls : List Int) : Prop where
  sp : s.sp = calls.length
  room : calls.length ≤ 16
  live : s.stack.toList.take calls.length = calls.reverse

namespace State.Stacks

variable {s t : State} {calls rest : List Int} {address : Int}

theorem empty (h : s.sp = 0) : s.Stacks [] := ⟨h, by simp, rfl⟩

/-- The list depends on the stack and its pointer only. -/
theorem congr (h : s.Stacks calls) (hsp : t.sp = s.sp) (hstack : t.stack = s.stack) :
    t.Stacks calls :=
  ⟨hsp.trans h.sp, h.room, hstack ▸ h.live⟩

theorem push_full (h : s.Stacks calls) (hfull : ¬ calls.length < 16) :
    push address s = .error (.stackOverflow s.pc) s := by
  have hsp := h.sp
  have hroom := h.room
  exact State.push_full (by omega)

theorem push_free (h : s.Stacks calls) (hfree : calls.length < 16) (address : Int) :
    ∃ t, push address s = .ok () t ∧ t.Stacks (address :: calls) := by
  have hlive := h.live
  refine ⟨_, State.push_free (k := ⟨calls.length, hfree⟩) h.sp, ?_, hfree, ?_⟩
  · simp [h.sp]
  · simp [List.take_add_one, Vector.toList_set, List.take_set_of_le, hlive, hfree]

theorem pop_empty (h : s.Stacks []) : pop s = .error (.stackUnderflow s.pc) s :=
  State.pop_empty h.sp

theorem pop_top (h : s.Stacks (address :: rest)) :
    ∃ t, pop s = .ok address t ∧ t.Stacks rest := by
  have hroom : rest.length < 16 := h.room
  have hsp : s.sp = (⟨rest.length, hroom⟩ : Fin 16).val + 1 := by simp [h.sp]
  have hlive : s.stack.toList.take rest.length ++ [s.stack[rest.length]] =
      rest.reverse ++ [address] := by
    simpa [List.take_add_one, hroom] using h.live
  obtain ⟨hrest, htop⟩ := List.append_inj' hlive rfl
  obtain rfl := List.singleton_inj.1 htop
  exact ⟨_, State.pop_top hsp, rfl, Nat.le_of_lt hroom, hrest⟩

end State.Stacks

/-- The return addresses after an instruction at `p`. -/
def Instruction.follow (d : Instruction) (p : Int) (calls : List Int) : List Int :=
  match d.kind with
  | .call => (p + 2) :: calls
  | .ret => calls.tail
  | _ => calls

namespace Core

variable {c : Core} {calls : List Int} {d : Instruction}

/-- A target that a call or a jump may have. -/
def Valid (target : Int) : Prop := (0 ≤ target ∧ target < State.memorySize) ∧ target % 2 = 0

theorem execute_call (h : d.kind = .call) : execute d = call d.nnn := by rw [execute, h]

theorem execute_ret (h : d.kind = .ret) : execute d = ret := by rw [execute, h]

theorem call_stacks (hc : c.state.Stacks calls) (target : Int) :
    Ends (call target)
      (fun _ t => calls.length < 16 ∧ t.state.Stacks ((c.state.pc + 2) :: calls))
      (fun _ _ => ¬ (calls.length < 16 ∧ Valid target)) c := by
  rw [call, ends_bind, ends_checkTarget]
  split_ifs with hr he
  · rw [ends_bind, ends_read, ends_bind, ends_onState]
    by_cases hfree : calls.length < 16
    · obtain ⟨s, hs, hstacks⟩ := hc.push_free hfree (c.state.pc + 2)
      rw [Ends, hs]
      dsimp only
      rw [ends_jumpTo, if_pos hr, if_pos he]
      exact ⟨hfree, hstacks.congr rfl rfl⟩
    · rw [Ends, hc.push_full hfree]
      exact fun h => hfree h.1
  · exact fun h => he h.2.2
  · exact fun h => hr h.2.1

theorem call_returns_iff (hc : c.state.Stacks calls) {target : Int} (hv : Valid target) :
    (∃ t, call target c = .ok () t) ↔ calls.length < 16 := by
  have hcall := call_stacks hc target
  cases hr : call target c with
  | ok _ t => simpa using (hcall.ok hr).1
  | error f t => simpa [hv] using hcall.error hr

theorem ret_stacks (hc : c.state.Stacks calls) :
    Ends ret (fun _ t => ∃ rest, calls = t.state.pc :: rest ∧ t.state.Stacks rest)
      (fun f _ => calls = [] → f = .stackUnderflow c.state.pc) c := by
  rw [ret, ends_bind, ends_onState]
  cases calls with
  | nil =>
    rw [Ends, hc.pop_empty]
    exact fun _ => rfl
  | cons address rest =>
    obtain ⟨s, hs, hstacks⟩ := hc.pop_top
    rw [Ends, hs]
    dsimp only
    rw [ends_jumpTo]
    split_ifs
    · exact ⟨rest, rfl, hstacks.congr rfl rfl⟩
    · exact fun hnone => hnone.elim
    · exact fun hnone => hnone.elim

/-- An instruction that ends leaves the return addresses it should, and no other than a call or a
return touches them. -/
theorem execute_stacks (d : Instruction) (hc : c.state.Stacks calls) :
    Ends (execute d) (fun _ t => t.state.Stacks (d.follow c.state.pc calls)) (fun _ _ => True) c := by
  have hwrites := execute_writes d c
  by_cases hcall : d.kind = .call
  · have hfollow : d.follow c.state.pc calls = (c.state.pc + 2) :: calls := by
      simp [Instruction.follow, hcall]
    rw [execute_call hcall, hfollow]
    exact (call_stacks hc d.nnn).imp (fun _ _ h => h.2) fun _ _ _ => trivial
  · by_cases hret : d.kind = .ret
    · rw [execute_ret hret]
      refine (ret_stacks hc).imp (fun _ t h => ?_) fun _ _ _ => trivial
      obtain ⟨rest, rfl, hstacks⟩ := h
      simpa [Instruction.follow, hret] using hstacks
    · have hfollow : d.follow c.state.pc calls = calls := by
        unfold Instruction.follow
        cases hk : d.kind <;> simp_all
      have hfree : .sp ∉ d.kind.writes ∧ .stack ∉ d.kind.writes := by
        cases hk : d.kind <;> simp_all [Kind.writes]
      rw [hfollow]
      refine hwrites.imp (fun _ t h => ?_) fun _ _ _ => trivial
      exact hc.congr (h .sp hfree.1) (h .stack hfree.2)

end Core

/-- The return addresses after a cycle at `p`. -/
def Snapshot.follow (s : Snapshot) (p : Int) (calls : List Int) : List Int :=
  match s.executed with
  | some d => d.follow p calls
  | none => calls

def Snapshot.Executes (s : Snapshot) (k : Kind) : Prop := ∃ d, s.executed = some d ∧ d.kind = k

/-- A run from `m₀`, with the return addresses beside it: cycles that return and are as `allowed`
says, and host actions other than a reset, which may fail. -/
inductive Runs (allowed : Snapshot → Machine → Prop) (m₀ : Machine) (calls₀ : List Int) :
    Machine → List Int → Prop
  | refl : Runs allowed m₀ calls₀ m₀ calls₀
  | step {m t : Machine} {calls : List Int} {s : Snapshot} (h : Runs allowed m₀ calls₀ m calls)
    (hs : m.step = .ok s t) (ha : allowed s t) :
    Runs allowed m₀ calls₀ t (s.follow m.state.pc calls)
  | act {m : Machine} {calls : List Int} {a : HostAction} (h : Runs allowed m₀ calls₀ m calls)
    (hs : a ≠ .step) (hr : a ≠ .reset) : Runs allowed m₀ calls₀ (left (a.act m)) calls

/-- Cycles that do not return to this depth of the call stack. -/
def Stays (depth : Int) (s : Snapshot) (t : Machine) : Prop := s.Executes .ret → t.state.sp ≠ depth

namespace Machine

variable {m t : Machine} {s : Snapshot} {calls calls' : List Int} {address : Int}

theorem step_stacks (hm : m.state.Stacks calls) (hs : m.step = .ok s t) :
    t.state.Stacks (s.follow m.state.pc calls) := by
  unfold Snapshot.follow
  cases hd : s.executed with
  | none =>
    obtain ⟨rfl, -⟩ := step_eq_waiting hs hd
    exact hm
  | some d =>
    obtain ⟨-, -, b, c, trace, -, he, -, -, rfl⟩ := step_eq_ok hs hd
    have hc := (Core.execute_stacks (c := ⟨m.state, b⟩) d hm).ok he
    exact hc

/-- A return goes to the latest of the return addresses. -/
theorem step_ret (hm : m.state.Stacks calls) (hs : m.step = .ok s t) (hret : s.Executes .ret) :
    ∃ rest, calls = t.state.pc :: rest ∧ t.state.Stacks rest := by
  obtain ⟨d, hd, hk⟩ := hret
  obtain ⟨-, -, b, c, trace, -, he, -, -, rfl⟩ := step_eq_ok hs hd
  rw [Core.execute_ret hk] at he
  have hc := (Core.ret_stacks (c := ⟨m.state, b⟩) hm).ok he
  exact hc

end Machine

namespace Runs

variable {allowed : Snapshot → Machine → Prop} {m₀ m : Machine} {calls₀ calls : List Int}
  {address depth : Int}

/-- Along a run the stack is the list. -/
theorem stacked (h₀ : m₀.state.Stacks calls₀) (h : Runs allowed m₀ calls₀ m calls) :
    m.state.Stacks calls := by
  induction h with
  | refl => exact h₀
  | step h hs ha ih => exact Machine.step_stacks ih hs
  | @act m calls a h hs hr ih =>
    have hchange := HostAction.act_changes hs hr m
    exact ih.congr hchange.sp hchange.stack

/-- Until a return to the depth of a call, its return address and those before it stay where they
are, below those of the calls made since. -/
theorem nested (h₀ : m₀.state.Stacks (address :: calls₀))
    (h : Runs (Stays calls₀.length) m₀ (address :: calls₀) m calls) :
    ∃ inner, calls = inner ++ address :: calls₀ := by
  induction h with
  | refl => exact ⟨[], rfl⟩
  | act h hs hr ih => exact ih
  | step h hs ha ih =>
    obtain ⟨inner, rfl⟩ := ih
    have hstacks := h.stacked h₀
    unfold Snapshot.follow
    split
    · next d hd =>
      unfold Instruction.follow
      split
      · exact ⟨_ :: inner, rfl⟩
      · next hk =>
        obtain ⟨rest, hrest, hafter⟩ := Machine.step_ret hstacks hs ⟨d, hd, hk⟩
        cases inner with
        | nil =>
          -- this return would have been to the depth of the call
          obtain ⟨-, rfl⟩ := List.cons.inj hrest
          exact absurd hafter.sp (ha ⟨d, hd, hk⟩)
        | cons latest inner => exact ⟨inner, rfl⟩
      · exact ⟨inner, rfl⟩
    · exact ⟨inner, rfl⟩

/-- The first return to the depth of a call goes past the call. -/
theorem returns (hm : m.state.Stacks calls) {s s' : Snapshot} {t u w : Machine} {inner : List Int}
    (hcall : m.step = .ok s t) (hs : s.Executes .call)
    (h : Runs (Stays m.state.sp) t ((m.state.pc + 2) :: calls) u inner) (hret : u.step = .ok s' w)
    (hs' : s'.Executes .ret) (hdepth : w.state.sp = m.state.sp) : w.state.pc = m.state.pc + 2 := by
  have ht : t.state.Stacks ((m.state.pc + 2) :: calls) := by
    obtain ⟨d, hd, hk⟩ := hs
    have hfollow : s.follow m.state.pc calls = (m.state.pc + 2) :: calls := by
      simp [Snapshot.follow, Instruction.follow, hd, hk]
    exact hfollow ▸ Machine.step_stacks hm hcall
  rw [hm.sp] at h hdepth
  obtain ⟨above, rfl⟩ := h.nested ht
  obtain ⟨rest, hrest, hafter⟩ := Machine.step_ret (h.stacked ht) hret hs'
  have hlength : rest.length = calls.length := by
    have hsp := hafter.sp
    omega
  cases above with
  | nil => exact (List.cons.inj hrest).1.symm
  | cons latest above =>
    -- the list would still be longer than at the call
    obtain ⟨-, rfl⟩ := List.cons.inj hrest
    simp at hlength
    omega

end Runs

namespace Machine

variable {m : Machine} {calls : List Int} {d : Instruction} {b : Bus} (ha : m.Active)
  (hp : m.state.Fetchable) (hr : readInstruction m.state.pc m.cleared.bus = .ok d b)

include ha hp hr

theorem step_call_returns_iff (hm : m.state.Stacks calls) (hcalm : m.trace.Calm)
    (hk : d.kind = .call) (heven : d.nnn % 2 = 0) :
    (∃ s t, m.step = .ok s t) ↔ calls.length < 16 := by
  have hvalid : Core.Valid d.nnn := by
    unfold Core.Valid State.memorySize
    unfold Decoded.nnn at heven ⊢
    omega
  rw [step_returns_iff ha hp hr hcalm, Core.execute_call hk]
  exact Core.call_returns_iff (c := ⟨m.state, b⟩) hm hvalid

theorem step_ret_empty (hm : m.state.Stacks []) (hk : d.kind = .ret) :
    ∃ t, m.step = .error (.stackUnderflow m.state.pc) t := by
  have hexec := Core.execute_ret hk
  have hret := Core.ret_stacks (c := ⟨m.state, b⟩) hm
  cases he : Core.execute d ⟨m.state, b⟩ with
  | ok _ c =>
    obtain ⟨rest, hrest, -⟩ := hret.ok (hexec ▸ he)
    exact nomatch hrest
  | error f c =>
    obtain rfl := hret.error (hexec ▸ he) rfl
    exact ⟨_, step_of_execute_error ha hp hr he⟩

end Machine

/-- As long as no cycle fails the stack is the list of the return addresses, so that a return goes
behind the call it belongs to, whatever came in between. -/
theorem run_stack {m₀ m : Machine} {calls : List Int} (h₀ : m₀.state.sp = 0)
    (h : Runs (fun _ _ => True) m₀ [] m calls) :
    (m.state.sp = calls.length ∧ m.state.stack.toList.take calls.length = calls.reverse) ∧
      (∀ s t, m.step = .ok s t → s.Executes .ret → ∃ rest, calls = t.state.pc :: rest) ∧
      (∀ s t, m.step = .ok s t → s.Executes .call →
        ∀ u inner, Runs (Stays m.state.sp) t ((m.state.pc + 2) :: calls) u inner →
        ∀ s' w, u.step = .ok s' w → s'.Executes .ret → w.state.sp = m.state.sp →
          w.state.pc = m.state.pc + 2) ∧
      ∀ d b, m.Active → m.state.Fetchable → m.trace.Calm →
        Machine.readInstruction m.state.pc m.cleared.bus = .ok d b →
        (d.kind = .call → d.nnn % 2 = 0 → ((∃ s t, m.step = .ok s t) ↔ calls.length < 16)) ∧
        (d.kind = .ret → calls = [] → ∃ t, m.step = .error (.stackUnderflow m.state.pc) t) := by
  have hm := h.stacked (.empty h₀)
  refine ⟨⟨hm.sp, hm.live⟩, ?head, ?back, ?room⟩
  case head =>
    intro s t hs hret
    obtain ⟨rest, hrest, -⟩ := Machine.step_ret hm hs hret
    exact ⟨rest, hrest⟩
  case back =>
    intro s t hs hcall u inner hrun s' w hs' hret hdepth
    exact Runs.returns hm hs hcall hrun hs' hret hdepth
  case room =>
    intro d b ha hp hcalm hr
    refine ⟨fun hk heven => Machine.step_call_returns_iff ha hp hr hm hcalm hk heven, ?_⟩
    intro hk hnone
    exact Machine.step_ret_empty ha hp hr (hnone ▸ hm) hk

/-- Loads a call to 0x206, where a return stands. -/
def loadCall : HostAction := .load [0x22, 0x06, 0x00, 0x00, 0x00, 0x00, 0x00, 0xEE]

theorem run_stack_loadCall : ∃ m₀ m s t, Machine.create Bus.blank 7 = .ok m₀ ∧ m₀.state.sp = 0 ∧
    Runs (fun _ _ => True) m₀ [] m [0x202] ∧ m.step = .ok s t ∧ s.Executes .ret ∧
    t.state.pc = 0x202 := by
  obtain ⟨m₀, h₀, hrun⟩ := Machine.exists_created Bus.blank 7 (fun m₀ =>
    decide (m₀.state.sp = 0) && decide ((left (loadCall.act m₀)).state.pc = 0x200) &&
      match (left (loadCall.act m₀)).step with
      | .error _ _ => false
      | .ok s t => decide (s.executed.map (·.kind) = some .call) && match t.step with
        | .error _ _ => false
        | .ok s' _ => decide (s'.executed.map (·.kind) = some .ret)) (by decide +kernel)
  simp only [Bool.and_eq_true, decide_eq_true_eq] at hrun
  obtain ⟨⟨hsp, hpc⟩, hrun⟩ := hrun
  have hload : Runs (fun _ _ => True) m₀ [] (left (loadCall.act m₀)) [] :=
    .act .refl (by decide) (by decide)
  generalize left (loadCall.act m₀) = m at hload hpc hrun
  cases hcall : m.step with
  | error f t => simp [hcall] at hrun
  | ok s t =>
    simp only [hcall, Bool.and_eq_true, decide_eq_true_eq] at hrun
    obtain ⟨hkind, hrun⟩ := hrun
    cases hret : t.step with
    | error f u => simp [hret] at hrun
    | ok s' u =>
      simp only [hret, decide_eq_true_eq] at hrun
      have hexecutes : s'.Executes .ret := Option.map_eq_some_iff.1 hrun
      have hcalls := hload.step hcall trivial
      obtain ⟨d, hd, hk⟩ := Option.map_eq_some_iff.1 hkind
      simp only [Snapshot.follow, hd, Instruction.follow, hk, hpc] at hcalls
      obtain ⟨rest, hrest⟩ := (run_stack hsp hcalls).2.1 s' u hret hexecutes
      have hback := (List.cons.inj hrest).1
      exact ⟨m₀, t, s', u, h₀, hsp, hcalls, hret, hexecutes, hback.symm⟩

end SpriteVM
