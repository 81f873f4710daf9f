import SpriteVM.Proofs.Outcome

namespace SpriteVM

def Hook.Calm (h : Hook) : Prop := ∀ message, .fail message ∉ h.reactions

def Hook.Tame (h : Hook) : Prop := h.Calm ∧ .stopRun ∉ h.reactions

namespace Trace

def Calm (t : Trace) : Prop := ∀ h ∈ t.hooks, h.Calm

def Tame (t : Trace) : Prop := ∀ h ∈ t.hooks, h.Tame

theorem Tame.calm {t : Trace} (ht : t.Tame) : t.Calm := fun h hh => (ht h hh).1

/-- A part of the hooks, and a stop asked for only as one of the reactions allows. -/
structure Follows (mayStop : Prop) (t u : Trace) : Prop where
  hooks : u.hooks ⊆ t.hooks
  stop : ¬ mayStop → u.stopAsked = t.stopAsked

theorem Follows.refl (P : Prop) (t : Trace) : Follows P t t := ⟨fun _ h => h, fun _ => rfl⟩

theorem Follows.trans {P : Prop} {t u w : Trace} (h : Follows P t u) (h' : Follows P u w) :
    Follows P t w :=
  ⟨fun _ hh => h.hooks (h'.hooks hh), fun hp => (h'.stop hp).trans (h.stop hp)⟩

variable {P : Prop} {t : Trace}

theorem remove_follows (name : String) (t : Trace) : Follows P t (t.remove name) :=
  ⟨fun _ h => List.mem_of_mem_eraseP h, fun _ => rfl⟩

theorem ends_react {rs : List Reaction} (hf : ∀ message, .fail message ∉ rs)
    (hs : .stopRun ∈ rs → P) (t : Trace) :
    Ends (react rs) (fun _ u => Follows P t u) (fun _ _ => False) t := by
  induction rs generalizing t with
  | nil => exact Follows.refl P t
  | cons r rs ih =>
    have ih := ih (fun message h => hf message (List.mem_cons_of_mem r h))
      fun h => hs (List.mem_cons_of_mem r h)
    cases r with
    | unhook name =>
      rw [react, ends_bind, ends_modify]
      exact (ih (t.remove name)).imp (fun _ _ h => (remove_follows name t).trans h) fun _ _ h => h
    | stopRun =>
      have hP : P := hs List.mem_cons_self
      rw [react, ends_bind, ends_modify]
      exact (ih { t with stopAsked := true }).imp
        (fun _ _ h => ⟨h.hooks, fun hn => absurd hP hn⟩) fun _ _ h => h
    | fail message => exact absurd List.mem_cons_self (hf message)

theorem ends_callAll {hooks : List Hook} (hf : ∀ h ∈ hooks, h.Calm)
    (hs : (∃ h ∈ hooks, .stopRun ∈ h.reactions) → P) (s : Snapshot) (t : Trace) :
    Ends (callAll s hooks) (fun _ u => Follows P t u) (fun _ _ => False) t := by
  induction hooks generalizing t with
  | nil => exact Follows.refl P t
  | cons h hooks ih =>
    have hh := hf h List.mem_cons_self
    have ih := ih (fun g hg => hf g (List.mem_cons_of_mem h hg))
      fun ⟨g, hg, hr⟩ => hs ⟨g, List.mem_cons_of_mem h hg, hr⟩
    rw [callAll, ends_bind, ends_modify, ends_bind]
    refine (ends_react hh (fun hr => hs ⟨h, List.mem_cons_self, hr⟩) _).imp (fun _ u hu => ?_)
      fun _ _ hf => hf
    have htu : Follows P t u := ⟨hu.hooks, hu.stop⟩
    exact (ih u).imp (fun _ _ hw => htu.trans hw) fun _ _ hf => hf

theorem ends_notify (ht : t.Calm) (hs : (∃ h ∈ t.hooks, .stopRun ∈ h.reactions) → P)
    (s : Snapshot) : Ends (notify s) (fun _ u => Follows P t u) (fun _ _ => False) t := by
  rw [notify, ends_bind, ends_modify, ends_bind, ends_get]
  split
  · exact (ends_callAll ht hs s _).imp (fun _ _ h => ⟨h.hooks, h.stop⟩) fun _ _ h => h
  · exact ⟨fun _ h => h, fun _ => rfl⟩

/-- A round leaves this journal, and it fails as a hook does. -/
def EndsTold (journal : Array Snapshot) (act : EStateM Fault Trace Unit) (t : Trace) : Prop :=
  Ends act (fun _ u => u.journal = journal)
    (fun f u => u.journal = journal ∧ ∃ message, f = .hook message) t

theorem react_told (rs : List Reaction) (t : Trace) : EndsTold t.journal (react rs) t := by
  induction rs generalizing t with
  | nil => exact rfl
  | cons r rs ih =>
    cases r with
    | unhook name =>
      rw [react, EndsTold, ends_bind, ends_modify]
      exact ih (t.remove name)
    | stopRun =>
      rw [react, EndsTold, ends_bind, ends_modify]
      exact ih { t with stopAsked := true }
    | fail message => exact ⟨rfl, message, rfl⟩

theorem callAll_told (s : Snapshot) (hooks : List Hook) (t : Trace) :
    EndsTold t.journal (callAll s hooks) t := by
  induction hooks generalizing t with
  | nil => exact rfl
  | cons h hooks ih =>
    rw [callAll, EndsTold, ends_bind, ends_modify, ends_bind]
    refine (react_told h.reactions _).imp (fun _ u hu => ?_) fun _ _ hf => hf
    have hrest := ih u
    rw [hu] at hrest
    exact hrest

/-- Every instruction gets into the journal, also if a hook fails on it. -/
theorem notify_told (s : Snapshot) (t : Trace) : EndsTold (t.journal.push s) (notify s) t := by
  rw [notify, EndsTold, ends_bind, ends_modify, ends_bind, ends_get]
  split
  · exact callAll_told s _ _
  · exact rfl

end Trace

end SpriteVM
