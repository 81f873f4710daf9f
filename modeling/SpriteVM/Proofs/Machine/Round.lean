import Mathlib.Data.List.Nodup
import SpriteVM.Proofs.Machine.Notify

namespace SpriteVM

def Reaction.failure? : Reaction → Option String
  | .fail message => some message
  | _ => none

namespace Hook

/-- The message that a hook fails with, if it does. -/
def failure? (h : Hook) : Option String := h.reactions.findSome? Reaction.failure?

theorem calm_iff {h : Hook} : h.Calm ↔ h.failure? = none := by
  rw [failure?, List.findSome?_eq_none_iff]
  constructor
  · intro hcalm r hr
    cases r with
    | fail message => exact absurd hr (hcalm message)
    | unhook | stopRun => rfl
  · intro hnone message hr
    exact nomatch hnone _ hr

/-- The hooks of a list that are called: all up to the first that fails, and that one. -/
def called (hooks : List Hook) : List Hook := hooks.take (hooks.findIdx (·.failure?.isSome) + 1)

theorem called_sublist (hooks : List Hook) : (called hooks).Sublist hooks := List.take_sublist _ _

theorem called_of_fails {h : Hook} {message : String} (hf : h.failure? = some message)
    (hooks : List Hook) : called (h :: hooks) = [h] := by
  simp [called, List.findIdx_cons, hf]

theorem called_of_calm {h : Hook} (hf : h.failure? = none) (hooks : List Hook) :
    called (h :: hooks) = h :: called hooks := by
  simp [called, List.findIdx_cons, hf]

theorem called_append {before : List Hook} (hcalm : ∀ h ∈ before, h.Calm) (hooks : List Hook) :
    called (before ++ hooks) = before ++ called hooks := by
  induction before with
  | nil => rfl
  | cons h before ih =>
    obtain ⟨hh, hbefore⟩ := List.forall_mem_cons.1 hcalm
    rw [List.cons_append, called_of_calm (calm_iff.1 hh), ih hbefore, List.cons_append]

theorem mem_called (h : Hook) (hooks : List Hook) : h ∈ called (h :: hooks) := by
  simp [called]

end Hook

namespace Trace

/-- No two hooks have one name. -/
def Distinct (t : Trace) : Prop := (t.hooks.map (·.name)).Nodup

/-- The hooks that a round calls. -/
def called (t : Trace) : List Hook := if t.enabled then Hook.called t.hooks else []

/-- The message that a round fails with, if it does. -/
def failure? (t : Trace) : Option String := t.called.findSome? Hook.failure?

/-- Calls are on and get to the hook of this name: it is registered, and no hook before it fails. -/
def Reaches (t : Trace) (name : String) : Prop :=
  t.enabled = true ∧ ∃ before h after, t.hooks = before ++ h :: after ∧ h.name = name ∧
    ∀ g ∈ before, g.Calm

variable {s : Snapshot} {hooks : List Hook} {t u w : Trace} {name : String}

theorem called_sublist (t : Trace) : t.called.Sublist t.hooks := by
  unfold called
  split
  · exact Hook.called_sublist t.hooks
  · exact List.nil_sublist _

theorem Distinct.nodup_called (h : t.Distinct) : (t.called.map (·.name)).Nodup :=
  h.sublist (t.called_sublist.map _)

theorem Calm.failure?_eq (h : t.Calm) : t.failure? = none := by
  rw [failure?, List.findSome?_eq_none_iff]
  exact fun hook hh => Hook.calm_iff.1 (h hook (t.called_sublist.subset hh))

theorem Reaches.mem_called (h : t.Reaches name) : name ∈ t.called.map (·.name) := by
  obtain ⟨hon, before, h, after, hhooks, rfl, hcalm⟩ := h
  rw [called, if_pos hon, hhooks, Hook.called_append hcalm, List.map_append]
  exact List.mem_append_right _ (List.mem_map_of_mem (Hook.mem_called h after))

/-- Of the calls of a round one is to the hook that calls get to. -/
theorem Reaches.called_once (h : t.Reaches name) (ht : t.Distinct) (s : Snapshot) :
    ((t.called.map fun h => HookCall.mk h.name s).filter (·.hook = name)).map (·.snapshot) = [s] := by
  have hcount : (t.called.map (·.name)).count name = 1 :=
    List.count_eq_one_of_mem ht.nodup_called h.mem_called
  have hlength : (t.called.filter (·.name = name)).length = 1 := by
    rw [← List.countP_eq_length_filter, ← hcount, List.count, List.countP_map]
    rfl
  obtain ⟨h, hfilter⟩ := List.length_eq_one_iff.1 hlength
  rw [List.filter_map]
  change ((t.called.filter (·.name = name)).map _).map _ = _
  rw [hfilter]
  rfl

theorem remove_distinct (h : t.Distinct) (name : String) : (t.remove name).Distinct :=
  h.sublist ((List.eraseP_sublist).map _)

theorem add_of_registered {h : Hook} (hr : t.registered h.name = true) :
    t.add h = { t with enabled := true } := by
  simp [add, hr]

theorem add_distinct (ht : t.Distinct) (h : Hook) : (t.add h).Distinct := by
  unfold add
  cases hr : t.registered h.name with
  | true => exact ht
  | false =>
    have hnew : h.name ∉ t.hooks.map (·.name) := by simpa [registered] using hr
    have happend : ((t.hooks ++ [h]).map (·.name)).Nodup := by
      rw [List.map_append, List.nodup_append]
      refine ⟨ht, by simp, fun name hname name' hname' => ?_⟩
      obtain rfl : name' = h.name := by simpa using hname'
      exact fun he => hnew (he ▸ hname)
    exact happend

/-- A hook registered already is not registered again. -/
theorem add_add (h : Hook) (t : Trace) : (t.add h).add h = t.add h := by
  have hr : (t.add h).registered h.name = true := by
    unfold add registered
    split <;> simp_all
  rw [add_of_registered hr]
  rfl

/-- From `t` to `u` these hooks were called on an instruction, and none was registered. -/
structure Told (s : Snapshot) (hooks : List Hook) (t u : Trace) : Prop where
  calls : u.calls.toList = t.calls.toList ++ hooks.map fun h => ⟨h.name, s⟩
  kept : u.hooks.Sublist t.hooks

theorem Told.of_same (hcalls : u.calls = t.calls) (hkept : u.hooks.Sublist t.hooks) : Told s [] t u :=
  ⟨by simp [hcalls], hkept⟩

theorem Told.trans {hooks' : List Hook} (h : Told s hooks t u) (h' : Told s hooks' u w) :
    Told s (hooks ++ hooks') t w where
  calls := by rw [h'.calls, h.calls, List.map_append, List.append_assoc]
  kept := h'.kept.trans h.kept

theorem Told.distinct (h : Told s hooks t u) (ht : t.Distinct) : u.Distinct :=
  ht.sublist (h.kept.map _)

/-- The action calls these hooks, and it fails with the message, if there is one. -/
def Tells (s : Snapshot) (hooks : List Hook) (message? : Option String) (act : EStateM Fault Trace Unit)
    (t : Trace) : Prop :=
  Ends act (fun _ u => message? = none ∧ Told s hooks t u)
    (fun f u => (∃ message, message? = some message ∧ f = .hook message) ∧ Told s hooks t u) t

theorem react_tells (s : Snapshot) (rs : List Reaction) (t : Trace) :
    Tells s [] (rs.findSome? Reaction.failure?) (react rs) t := by
  induction rs generalizing t with
  | nil => exact ⟨rfl, .of_same rfl (.refl _)⟩
  | cons r rs ih =>
    cases r with
    | unhook name =>
      rw [react, Tells, ends_bind, ends_modify]
      have hremoved : Told s [] t (t.remove name) := .of_same rfl List.eraseP_sublist
      exact (ih (t.remove name)).imp (fun _ _ h => ⟨h.1, hremoved.trans h.2⟩)
        fun _ _ h => ⟨h.1, hremoved.trans h.2⟩
    | stopRun =>
      rw [react, Tells, ends_bind, ends_modify]
      exact (ih { t with stopAsked := true }).imp (fun _ _ h => ⟨h.1, ⟨h.2.calls, h.2.kept⟩⟩)
        fun _ _ h => ⟨h.1, ⟨h.2.calls, h.2.kept⟩⟩
    | fail message => exact ⟨⟨message, rfl, rfl⟩, .of_same rfl (.refl _)⟩

/-- The hooks are those of the list that the round began with, whatever is taken off it. -/
theorem callAll_tells (s : Snapshot) (hooks : List Hook) (t : Trace) :
    Tells s (Hook.called hooks) ((Hook.called hooks).findSome? Hook.failure?) (callAll s hooks) t := by
  induction hooks generalizing t with
  | nil => exact ⟨rfl, .of_same rfl (.refl _)⟩
  | cons h hooks ih =>
    have hfirst : Told s [h] t { t with calls := t.calls.push ⟨h.name, s⟩ } := ⟨by simp, .refl _⟩
    rw [callAll, Tells, ends_bind, ends_modify, ends_bind]
    refine (react_tells s h.reactions _).imp (fun _ u hu => ?_) fun f u hu => ?_
    · have hcalm : h.failure? = none := hu.1
      have htold := hfirst.trans hu.2
      rw [Hook.called_of_calm hcalm, List.findSome?_cons, hcalm]
      exact (ih u).imp (fun _ _ hw => ⟨hw.1, htold.trans hw.2⟩) fun _ _ hw => ⟨hw.1, htold.trans hw.2⟩
    · obtain ⟨⟨message, hfails, rfl⟩, htold⟩ := hu
      have hfails : h.failure? = some message := hfails
      rw [Hook.called_of_fails hfails]
      exact ⟨⟨message, by simp [hfails], rfl⟩, hfirst.trans htold⟩

theorem notify_tells (s : Snapshot) (t : Trace) : Tells s t.called t.failure? (notify s) t := by
  rw [notify, Tells, ends_bind, ends_modify, ends_bind, ends_get]
  cases hon : t.enabled with
  | true =>
    rw [failure?, called, hon, if_pos rfl]
    exact (callAll_tells s t.hooks _).imp (fun _ _ h => ⟨h.1, ⟨h.2.calls, h.2.kept⟩⟩)
      fun _ _ h => ⟨h.1, ⟨h.2.calls, h.2.kept⟩⟩
  | false =>
    have hnone : t.called = [] := by simp [called, hon]
    rw [failure?, hnone]
    exact ⟨rfl, .of_same rfl (.refl _)⟩

end Trace

end SpriteVM
