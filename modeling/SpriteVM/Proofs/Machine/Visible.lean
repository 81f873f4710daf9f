import SpriteVM.Proofs.Machine.Between
import SpriteVM.Proofs.Machine.Outcome
import SpriteVM.Proofs.View

namespace SpriteVM

namespace Machine

/-- All of a machine but the instruction fetched last. -/
def visible (m : Machine) : Machine := { m with fetched := none }

theorem visible_eq {m t : Machine} : m.visible = t.visible ↔ ∃ i, t = { m with fetched := i } := by
  obtain ⟨core, seed, cycles, fetched, trace⟩ := m
  obtain ⟨core', seed', cycles', fetched', trace'⟩ := t
  simp [visible, eq_comm]

variable {α : Type}

/-- Nothing depends on what was fetched last. -/
abbrev Forgetful (act : Action α) : Prop := Blind visible act

theorem forgetful_of {act : Action α}
    (h : ∀ m i, seen visible (act { m with fetched := i }) = seen visible (act m)) :
    Forgetful act := by
  intro m t hmt
  obtain ⟨i, rfl⟩ := visible_eq.1 hmt
  exact (h m i).symm

theorem onCore_forgetful (act : Exec α) : Forgetful (onCore act) := by
  refine forgetful_of fun m i => ?_
  unfold onCore
  dsimp only
  cases act m.core <;> rfl

theorem onTrace_forgetful (act : EStateM Fault Trace α) : Forgetful (onTrace act) := by
  refine forgetful_of fun m i => ?_
  unfold onTrace
  dsimp only
  cases act m.trace <;> rfl

theorem Built.forgetful {R : State → State → Prop} {act : Action α} (h : Built R act) :
    Forgetful act := by
  induction h with
  | pure a => exact Blind.pure a
  | throw f => exact Blind.throw f
  | bind h hn ih ihn => exact ih.bind ihn
  | inspect | takeLog => exact forgetful_of fun _ _ => rfl
  | update | busRead | busWrite | busLoad => exact onCore_forgetful _
  | onTrace act => exact onTrace_forgetful act

theorem reset_forgetful : Forgetful reset := by
  refine Blind.bind (Blind.modify fun m t hmt => ?_) fun _ => onCore_forgetful _
  obtain ⟨i, rfl⟩ := visible_eq.1 hmt
  rfl

theorem step_forgetful : Forgetful step := by
  refine forgetful_of fun m i => ?_
  have hactive : ({ m with fetched := i } : Machine).Active ↔ m.Active := Iff.rfl
  by_cases ha : m.Active
  · -- both cycles are described by the same conditions on what they come to
    have hself (t : Machine) :
        Ends step (fun s u => seen visible (.ok s u) = seen visible (step m))
          (fun f u => seen visible (.error f u) = seen visible (step m)) t ↔
          seen visible (step t) = seen visible (step m) :=
      ends_self (P := fun r => seen visible r = seen visible (step m))
    exact (hself _).1 ((ends_cycle (hactive.2 ha)).2 ((ends_cycle ha).1 ((hself m).2 rfl)))
  · cases ht : m.state.terminal with
    | true =>
      rw [step_terminal ht, step_terminal (m := { m with fetched := i }) ht]
      rfl
    | false =>
      have hb : m.state.blocking = true := by simpa [Active, ht] using ha
      rw [step_blocking ht hb, step_blocking (m := { m with fetched := i }) ht hb]
      rfl

end Machine

open Machine

theorem HostAction.act_forgetful (a : HostAction) : Forgetful a.act := by
  obtain rfl | rfl | hbuilt := a.step_or_reset_or_built
  · exact step_forgetful.map _
  · exact reset_forgetful.map _
  · exact hbuilt.forgetful

/-- What a host gets to see in a session: for each action its reply or its fault, and the machine
after it but for the instruction fetched last. -/
def transcript : List HostAction → Machine → List (Except Fault Reply × Machine)
  | [], _ => []
  | a :: rest, m => seen visible (a.act m) :: transcript rest (left (a.act m))

/-- Machines that differ in the instruction fetched last cannot be told apart. -/
theorem transcript_eq {m t : Machine} (h : m.visible = t.visible) (actions : List HostAction) :
    transcript actions m = transcript actions t := by
  induction actions generalizing m t with
  | nil => rfl
  | cons a actions ih =>
    have hact := a.act_forgetful m t h
    have hleft : (left (a.act m)).visible = (left (a.act t)).visible := by
      calc (left (a.act m)).visible = (seen visible (a.act m)).2 := view_left visible _
        _ = (seen visible (a.act t)).2 := by rw [hact]
        _ = (left (a.act t)).visible := (view_left visible _).symm
    rw [transcript, transcript, hact, ih hleft]

end SpriteVM
