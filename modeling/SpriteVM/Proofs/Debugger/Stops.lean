import Mathlib.Tactic.SplitIfs
import SpriteVM.Debugger
import SpriteVM.Proofs.Machine.Cycle
import SpriteVM.Proofs.Machine.Notify
import SpriteVM.Proofs.Machine.Shown

namespace SpriteVM

/-- What a breakpoint for memory or for registers is hit by: its address read or written, its register
at its value, or its register changed. -/
inductive Breakpoint.Hits (b : Breakpoint) (s : Snapshot) (before after : State) : Prop
  | read {address data : Int} (hk : b.kind = .memoryRead) (ha : b.address = some address)
    (hs : ⟨.read, address, data⟩ ∈ s.accesses)
  | write {address data : Int} (hk : b.kind = .memoryWrite) (ha : b.address = some address)
    (hs : ⟨.write, address, data⟩ ∈ s.accesses)
  | value {name : String} {n : Int} (hk : b.kind = .registerValue) (hr : b.register = some name)
    (hv : b.value = some n) (ha : after.Shows name n)
  | change {name : String} {old new : Int} (hk : b.kind = .registerChange)
    (hr : b.register = some name) (hp : before.Shows name old) (ha : after.Shows name new)
    (hne : old ≠ new)

def Hit (bs : List Breakpoint) (s : Snapshot) (before after : State) : Prop :=
  ∃ b ∈ bs, b.enabled = true ∧ b.Hits s before after

/-- A breakpoint for the program counter waits there. -/
def Waits (bs : List Breakpoint) (pc : Int) : Prop :=
  ∃ b ∈ bs, b.enabled = true ∧ b.kind = .counter ∧ b.value = some pc

/-- What is looked at right after a step from `p` to `q`, in this order. -/
def stepChecks (bs : List Breakpoint) (p : State) (s : Snapshot) (q : Machine) :
    List (Prop × StopReason) := [
  (q.state.halted = true, .halted),
  (q.state.quit = true, .quit),
  (q.state.blocking = true, .blocked),
  (Hit bs s p q.state, .breakpoint)]

/-- What is looked at after step number `k` and before the next one. -/
def checks (bs : List Breakpoint) (limit : Option Int) (k : Nat) (p : State) (s : Snapshot)
    (q : Machine) : List (Prop × StopReason) :=
  stepChecks bs p s q ++ [
    (limit = some (k : Int), .stepLimit),
    (Waits bs q.state.pc, .breakpoint)]

/-- The reason of the first check that holds. -/
inductive FirstOf : List (Prop × StopReason) → StopReason → Prop
  | here {P : Prop} {r : StopReason} {rest : List (Prop × StopReason)} (h : P) :
    FirstOf ((P, r) :: rest) r
  | later {P : Prop} {x r : StopReason} {rest : List (Prop × StopReason)} (h : ¬ P)
    (hr : FirstOf rest r) : FirstOf ((P, x) :: rest) r

theorem firstOf_cons {P : Prop} {x r : StopReason} {rest : List (Prop × StopReason)} :
    FirstOf ((P, x) :: rest) r ↔ P ∧ x = r ∨ ¬ P ∧ FirstOf rest r := by
  constructor
  · intro h
    cases h with
    | here h => exact .inl ⟨h, rfl⟩
    | later h hr => exact .inr ⟨h, hr⟩
  · rintro (⟨h, rfl⟩ | ⟨h, hr⟩)
    · exact .here h
    · exact .later h hr

theorem not_firstOf_nil (r : StopReason) : ¬ FirstOf [] r := nofun

theorem firstOf_append {l l' : List (Prop × StopReason)} {r : StopReason} :
    FirstOf (l ++ l') r ↔ FirstOf l r ∨ (∀ x, ¬ FirstOf l x) ∧ FirstOf l' r := by
  induction l with
  | nil => simp [not_firstOf_nil]
  | cons c l ih =>
    obtain ⟨P, x⟩ := c
    by_cases hP : P <;> simp [firstOf_cons, hP, ih]

namespace Breakpoint

variable {bs : List Breakpoint}

theorem any_stopsAt (pc : Int) : bs.any (·.stopsAt pc) = true ↔ Waits bs pc := by
  simp [Waits, stopsAt, and_assoc]

instance (pc : Int) : Decidable (Waits bs pc) := decidable_of_iff _ (any_stopsAt pc)

theorem touched_iff {s : Snapshot} {address : Int} {kind : AccessKind} :
    s.touched address kind = true ↔ ∃ data, ⟨kind, address, data⟩ ∈ s.accesses := by
  rw [Snapshot.touched, List.any_eq_true]
  constructor
  · rintro ⟨⟨k, a, data⟩, hmem, h⟩
    simp only [Bool.and_eq_true, decide_eq_true_eq] at h
    obtain ⟨rfl, rfl⟩ := h
    exact ⟨data, hmem⟩
  · rintro ⟨data, hmem⟩
    exact ⟨_, hmem, by simp⟩

theorem stopsAfter_iff {b : Breakpoint} {s : Snapshot} {before after : State} :
    b.stopsAfter s before.registers after.registers = true ↔
      b.enabled = true ∧ b.Hits s before after := by
  rw [stopsAfter, Bool.and_eq_true, and_congr_right_iff]
  intro _
  constructor
  · intro h
    cases hk : b.kind with
    | counter => simp [hk] at h
    | memoryRead =>
      simp only [hk, Option.any_eq_true] at h
      obtain ⟨address, ha, hs⟩ := h
      obtain ⟨data, hs⟩ := touched_iff.1 hs
      exact .read hk ha hs
    | memoryWrite =>
      simp only [hk, Option.any_eq_true] at h
      obtain ⟨address, ha, hs⟩ := h
      obtain ⟨data, hs⟩ := touched_iff.1 hs
      exact .write hk ha hs
    | registerValue =>
      simp only [hk, Option.any_eq_true, decide_eq_true_eq] at h
      obtain ⟨name, hr, n, ha, hv⟩ := h
      exact .value hk hr hv (State.lookup_eq_some.1 ha)
    | registerChange =>
      simp only [hk, Option.any_eq_true] at h
      obtain ⟨name, hr, h⟩ := h
      split at h
      · next new old ha hp =>
        have hne : old ≠ new := fun heq => by simp [heq] at h
        exact .change hk hr (State.lookup_eq_some.1 hp) (State.lookup_eq_some.1 ha) hne
      · contradiction
  · intro h
    cases h with
    | read hk ha hs => simpa [hk, ha, touched_iff] using ⟨_, hs⟩
    | write hk ha hs => simpa [hk, ha, touched_iff] using ⟨_, hs⟩
    | value hk hr hv ha => simp [hk, hr, State.lookup_eq_some.2 ha, hv]
    | change hk hr hp ha hne =>
      simp [hk, hr, State.lookup_eq_some.2 hp, State.lookup_eq_some.2 ha, Ne.symm hne]

theorem any_stopsAfter (s : Snapshot) (before after : State) :
    bs.any (·.stopsAfter s before.registers after.registers) = true ↔ Hit bs s before after := by
  simp only [List.any_eq_true, stopsAfter_iff, Hit]

end Breakpoint

/-- The debugger finds the first reason, where no step is without an instruction unless it waits and
no stop was asked for. -/
theorem Debugger.stopAfter_eq_some {s : Snapshot} {p : State} {d : Debugged} {r : StopReason}
    (hs : s.executed = none → d.machine.state.blocking = true)
    (ha : d.machine.trace.stopAsked = false) :
    stopAfter s p.registers d = some r ↔
      FirstOf (stepChecks d.debugger.breakpoints p s d.machine) r := by
  have hb : (s.executed.isNone || d.machine.state.blocking) = d.machine.state.blocking := by
    cases he : s.executed with
    | none => simp [hs he]
    | some d => rfl
  simp only [stopAfter, hb, ha, stepChecks, firstOf_cons, ← Breakpoint.any_stopsAfter]
  split_ifs <;> simp_all [not_firstOf_nil]

theorem Debugger.stopAfter_eq_none {s : Snapshot} {p : State} {d : Debugged}
    (hs : s.executed = none → d.machine.state.blocking = true)
    (ha : d.machine.trace.stopAsked = false) :
    stopAfter s p.registers d = none ↔
      ∀ r, ¬ FirstOf (stepChecks d.debugger.breakpoints p s d.machine) r := by
  simp only [Option.eq_none_iff_forall_ne_some, ne_eq, stopAfter_eq_some hs ha]

namespace Machine

variable {m : Machine}

theorem fetch_trace (m : Machine) :
    Ends fetch (fun _ t => t.trace = m.trace) (fun _ _ => True) m := by
  rw [ends_fetch]
  split
  · exact Ends.of_forall (fun _ _ _ => rfl) fun _ _ _ => trivial
  · trivial

theorem step_tame (hm : m.trace.Tame) :
    Ends step (fun _ t => t.trace.Tame ∧ t.trace.stopAsked = m.trace.stopAsked) (fun _ _ => True)
      m := by
  refine ends_step (fun _ => trivial) (fun _ _ => ⟨hm, rfl⟩) fun _ => ?_
  refine (fetch_trace m.cleared).imp (fun word t htrace => ?_) fun _ _ _ => trivial
  have htrace : t.trace = m.trace := htrace
  refine Ends.of_forall (fun _ c _ => ?_) fun _ _ _ => trivial
  rw [htrace]
  have hstop : (∃ h ∈ m.trace.hooks, .stopRun ∈ h.reactions) → False :=
    fun ⟨h, hh, hs⟩ => (hm h hh).2 hs
  exact (Trace.ends_notify hm.calm hstop _).imp
    (fun _ u hu => ⟨fun h hh => hm h (hu.hooks hh), hu.stop id⟩) fun _ _ _ => trivial

theorem step_executed (m : Machine) :
    Ends step (fun s t => s.executed = none → t.state.blocking = true) (fun _ _ => True) m := by
  refine ends_step (fun _ => trivial) (fun _ hb _ => hb) fun _ => ?_
  refine Ends.of_forall (fun word t _ => ?_) fun _ _ _ => trivial
  refine Ends.of_forall (fun _ c _ => ?_) fun _ _ _ => trivial
  exact Ends.of_forall (fun _ _ _ h => by simp [report] at h) fun _ _ _ => trivial

end Machine

end SpriteVM
