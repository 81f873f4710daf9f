import SpriteVM.Proofs.Machine.Outcome
import SpriteVM.Proofs.Machine.Primitive

namespace SpriteVM

open SpriteVM.Core (families)

variable {α : Type}

/-- The action fails with faults of these families alone. -/
def InFamilies {σ : Type} (act : EStateM Fault σ α) (s : σ) : Prop :=
  Ends act (fun _ _ => True) (fun f _ => f.kind ∈ families) s

namespace Device

variable {d : Device} {offset data : Int} {f : Fault}

theorem read_family (h : d.read offset = .error f) : f.kind ∈ families := by
  unfold Device.read Ram.read at h
  split at h
  · split at h
    · contradiction
    · obtain rfl := Except.error.inj h
      simp [Fault.kind, families]
  · contradiction

theorem refusal_family (h : d.refusal? offset data = some f) : f.kind ∈ families := by
  unfold Device.refusal? Ram.refusal? at h
  split at h
  · split at h
    · obtain rfl := Option.some.inj h
      simp [Fault.kind, families]
    · split at h
      · contradiction
      · obtain rfl := Option.some.inj h
        simp [Fault.kind, families]
  · contradiction

end Device

namespace Bus

variable {b t : Bus} {f : Fault}

theorem peek_family {address : Int} (h : b.peek address = .error f) : f.kind ∈ families := by
  unfold peek readDevice at h
  split at h
  · split at h
    · exact Device.read_family h
    · obtain rfl := Except.error.inj h
      simp [Fault.kind, families]
  · obtain rfl := Except.error.inj h
    simp [Fault.kind, families]

theorem poke_family {address data : Int} (h : poke address data b = .error f t) :
    f.kind ∈ families := by
  unfold poke writeDevice at h
  split at h
  · split at h
    · obtain ⟨rfl, -⟩ := EStateM.Result.error.inj h
      simp [Fault.kind, families]
    · split at h
      · next hrefused =>
        obtain ⟨rfl, -⟩ := EStateM.Result.error.inj h
        exact Device.refusal_family hrefused
      · contradiction
  · obtain ⟨rfl, -⟩ := EStateM.Result.error.inj h
    simp [Fault.kind, families]

theorem read_family (address : Int) (b : Bus) : InFamilies (read address) b := by
  refine Ends.of_forall (fun _ _ _ => trivial) fun f t h => ?_
  unfold read at h
  split at h
  · contradiction
  · next hpeek =>
    obtain ⟨rfl, -⟩ := EStateM.Result.error.inj h
    exact peek_family hpeek

theorem write_family (address data : Int) (b : Bus) : InFamilies (write address data) b := by
  refine Ends.of_forall (fun _ _ _ => trivial) fun f t h => ?_
  unfold write at h
  split at h
  · contradiction
  · next hpoke =>
    obtain ⟨rfl, -⟩ := EStateM.Result.error.inj h
    exact poke_family hpoke

end Bus

theorem Core.Built.family {act : Exec α} (h : Built act) (c : Core) : InFamilies act c := by
  induction h generalizing c with
  | pure | read | update => trivial
  | fail cause h => exact h c.state
  | bind h hn ih ihn =>
    rw [InFamilies, ends_bind]
    exact (ih c).imp (fun a t _ => ihn a t) fun _ _ hf => hf
  | onState act h =>
    rw [InFamilies, ends_onState]
    exact Ends.of_forall (fun _ _ _ => trivial) fun f t hf => h c.state f t hf
  | busRead address =>
    rw [InFamilies, ends_onBus]
    exact Bus.read_family address c.bus
  | busWrite address data =>
    rw [InFamilies, ends_onBus]
    exact Bus.write_family address data c.bus

namespace Machine

variable {m : Machine}

theorem readInstruction_family (address : Int) (b : Bus) :
    InFamilies (readInstruction address) b := by
  rw [InFamilies, readInstruction, ends_bind]
  refine (Bus.read_family address b).imp (fun high t _ => ?_) fun _ _ hf => hf
  rw [ends_bind]
  exact (Bus.read_family (address + 1) t).imp (fun _ _ _ => trivial) fun _ _ hf => hf

theorem Active.family (ha : m.Active) : InFamilies step m := by
  have ho := step_outcome m
  refine Ends.of_forall (fun _ _ _ => trivial) fun f t hs => ?_
  rw [hs] at ho
  cases ho with
  | stopped ht =>
    rw [ha.1] at ht
    contradiction
  | counter => simp [Fault.kind, families]
  | unreadable _ _ hr => exact (readInstruction_family _ _).error hr
  | failed _ _ _ he => exact ((Core.Built.execute _).family _).error he
  | hookFailed _ _ _ _ hn =>
    obtain ⟨-, message, rfl⟩ := (Trace.notify_told _ _).error hn
    simp [Fault.kind, families]

/-- Only a stopped machine is told that it has stopped. -/
theorem Active.not_stopped (ha : m.Active) {f : Fault} {t : Machine} (hs : m.step = .error f t) :
    f.kind ≠ .machineStopped := by
  intro hk
  have hmem := ha.family.error hs
  rw [hk] at hmem
  contradiction

end Machine

end SpriteVM
