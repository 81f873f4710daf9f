import Mathlib.Data.List.Induction
import Mathlib.Tactic.SplitIfs
import SpriteVM.Proofs.Machine.Session

namespace SpriteVM

/-- How a host action other than a cycle and a reset may change the state. -/
structure HostAction.Change (a : HostAction) (s t : State) : Prop where
  pc : t.pc = s.pc
  sp : t.sp = s.sp
  i : t.i = s.i
  stack : t.stack = s.stack
  keyTarget : t.keyTarget = s.keyTarget
  halted : t.halted = s.halted
  quit : t.quit = s.quit
  random : t.random = s.random
  /-- A new picture is announced. -/
  picture : t.screen = s.screen ∨ (a ≠ .takeDraw ∧ t.draw = true)
  announced : a ≠ .takeDraw → s.draw = true → t.draw = true

namespace HostAction.Change

variable {a : HostAction} {s t u : State}

theorem refl (a : HostAction) (s : State) : Change a s s :=
  ⟨rfl, rfl, rfl, rfl, rfl, rfl, rfl, rfl, .inl rfl, fun _ h => h⟩

theorem trans (h : Change a s t) (h' : Change a t u) : Change a s u where
  pc := h'.pc.trans h.pc
  sp := h'.sp.trans h.sp
  i := h'.i.trans h.i
  stack := h'.stack.trans h.stack
  keyTarget := h'.keyTarget.trans h.keyTarget
  halted := h'.halted.trans h.halted
  quit := h'.quit.trans h.quit
  random := h'.random.trans h.random
  picture := by
    obtain hsame | ⟨ha, hdraw⟩ := h.picture
    · rw [← hsame]
      exact h'.picture
    · exact .inr ⟨ha, h'.announced ha hdraw⟩
  announced := fun ha hdraw => h'.announced ha (h.announced ha hdraw)

/-- Another picture, with the registers that tell its size. -/
theorem announce (ha : a ≠ .takeDraw) (s : State) (v : Vector Int 16) (screen : Screen) :
    Change a s { s with v := v, screen := screen, draw := true } :=
  { refl a s with
    picture := .inr ⟨ha, rfl⟩
    announced := fun _ _ => rfl }

end HostAction.Change

/-- The single changes of the state that a host action other than a cycle and a reset makes. -/
inductive HostAction.Moves : HostAction → State → State → Prop
  | setKey (key : Int) (down : Bool) (s : State) (keys : Vector Bool 16) :
    Moves (.setKey key down) s { s with keys := keys }
  | answer (s : State) (x : Fin 16) (key : Int) :
    Moves .resolveKey s { s.setReg x key with blocking := false }
  | tick (s : State) : Moves .tick s s.tick
  | take (s : State) : Moves .takeDraw s { s with draw := false }
  | resize (width height : Int) (s : State) (v : Vector Int 16) (screen : Screen) :
    Moves (.resize width height) s { s with v := v, screen := screen, draw := true }
  | load (image : List UInt8) (s : State) (v : Vector Int 16) (screen : Screen) :
    Moves (.load image) s { s with v := v, screen := screen, draw := true }

namespace HostAction.Moves

variable {a : HostAction} {s t : State}

theorem change (h : a.Moves s t) : a.Change s t := by
  cases h with
  | setKey | answer | tick => exact { Change.refl _ s with }
  | take =>
    exact { Change.refl .takeDraw s with
      picture := .inl rfl
      announced := fun h => absurd rfl h }
  | resize | load => exact .announce (by nofun) s _ _

/-- No host action makes the machine wait for a key. -/
theorem blocking (h : a.Moves s t) (ht : t.blocking = true) : s.blocking = true := by
  cases h with
  | answer => exact absurd ht Bool.false_ne_true
  | _ => exact ht

end HostAction.Moves

namespace Machine

/-- Actions put together from primitive ones that change the state as `R` says. -/
inductive Built (R : State → State → Prop) : {α : Type} → Action α → Prop
  | pure {α : Type} (a : α) : Built R (Pure.pure a : Action α)
  | throw {α : Type} (f : Fault) : Built R (MonadExcept.throw f : Action α)
  | bind {α β : Type} {act : Action α} {next : α → Action β} (h : Built R act)
    (hn : ∀ a, Built R (next a)) : Built R (act >>= next)
  | inspect {α : Type} (view : State → α) : Built R (Machine.inspect view)
  | update {change : State → State} (h : ∀ s, R s (change s)) : Built R (Machine.update change)
  | busRead (address : Int) : Built R (onBus (Bus.read address))
  | busWrite (address data : Int) : Built R (onBus (Bus.write address data))
  | busLoad (address : Int) (data : List UInt8) : Built R (onBus (Bus.load address data))
  | takeLog : Built R Machine.takeLog
  | onTrace {α : Type} (act : EStateM Fault Trace α) : Built R (Machine.onTrace act)

namespace Built

variable {R : State → State → Prop} {α β : Type} {act : Action α} {a : HostAction} {m : Machine}

theorem map (h : Built R act) (g : α → β) : Built R (g <$> act) := by
  rw [← bind_pure_comp]
  exact h.bind fun a => pure (g a)

/-- Whether it returns or fails, a built action changes the state as its parts do. -/
theorem changes (hrefl : ∀ s, R s s) (htrans : ∀ s t u, R s t → R t u → R s u) (h : Built R act)
    (m : Machine) :
    Ends act (fun _ t => R m.state t.state) (fun _ t => R m.state t.state) m := by
  induction h generalizing m with
  | pure | throw | inspect | takeLog => exact hrefl m.state
  | bind h hn ih ihn =>
    rw [ends_bind]
    refine (ih m).imp (fun a t ht => ?_) fun _ _ ht => ht
    exact (ihn a t).imp (fun _ _ hu => htrans _ _ _ ht hu) fun _ _ hu => htrans _ _ _ ht hu
  | update h => exact h m.state
  | busRead | busWrite | busLoad =>
    rw [ends_onBus]
    exact Ends.of_forall (fun _ _ _ => hrefl m.state) fun _ _ _ => hrefl m.state
  | onTrace act =>
    rw [ends_onTrace]
    exact Ends.of_forall (fun _ _ _ => hrefl m.state) fun _ _ _ => hrefl m.state

theorem left_changes (hrefl : ∀ s, R s s) (htrans : ∀ s t u, R s t → R t u → R s u)
    (h : Built R act) (m : Machine) : R m.state (left (act m)).state :=
  ends_left (P := fun t : Machine => R m.state t.state).1 (h.changes hrefl htrans m)

theorem mono {R S : State → State → Prop} (h : Built R act) (hRS : ∀ s t, R s t → S s t) :
    Built S act := by
  induction h with
  | pure a => exact pure a
  | throw f => exact throw f
  | bind h hn ih ihn => exact ih.bind ihn
  | inspect view => exact inspect view
  | update h => exact update fun s => hRS _ _ (h s)
  | busRead address => exact busRead address
  | busWrite address data => exact busWrite address data
  | busLoad address data => exact busLoad address data
  | takeLog => exact takeLog
  | onTrace act => exact onTrace act

theorem setKey (key : Int) (down : Bool) :
    Built (HostAction.setKey key down).Moves (Machine.setKey key down) := by
  unfold Machine.setKey
  split
  · exact update fun s => .setKey key down s _
  · exact throw _

theorem resolveKey : Built HostAction.resolveKey.Moves Machine.resolveKey := by
  refine (inspect _).bind fun blocking => ?_
  split
  · exact pure _
  · refine (inspect _).bind fun key => ?_
    cases key with
    | none => exact pure _
    | some key =>
      refine (inspect _).bind fun target => ?_
      cases slot? target with
      | none => exact throw _
      | some x => exact (update fun s => .answer s x key.val).bind fun _ => pure _

theorem takeDraw : Built HostAction.takeDraw.Moves Machine.takeDraw :=
  (inspect _).bind fun drew => (update .take).bind fun _ => pure drew

section Resized

variable (ha : ∀ s v screen, a.Moves s { s with v := v, screen := screen, draw := true })

include ha

theorem resizeScreen (width height : Int) : Built a.Moves (Machine.resizeScreen width height) := by
  unfold Machine.resizeScreen
  cases Screen.ofSize width height with
  | error f => exact throw _
  | ok screen => exact update fun s => ha s _ screen

theorem load (image : List UInt8) : Built a.Moves (Program.load image) := by
  unfold Program.load
  split_ifs
  · rw [throw_bind]
    exact throw _
  · cases Program.header image with
    | error f => exact throw _
    | ok h =>
      refine (busLoad _ _).bind fun _ => ?_
      cases h with
      | none => exact (resizeScreen ha _ _).bind fun _ => pure _
      | some h => exact (resizeScreen ha _ _).bind fun _ => pure _

end Resized

end Built

end Machine

open Machine

theorem HostAction.act_built {a : HostAction} (hs : a ≠ .step) (hr : a ≠ .reset) :
    Built a.Moves a.act := by
  cases a with
  | step => exact absurd rfl hs
  | reset => exact absurd rfl hr
  | setKey key down => exact (Built.setKey key down).map _
  | resolveKey => exact Built.resolveKey.map _
  | tick => exact (Built.update .tick).map _
  | takeDraw => exact Built.takeDraw.map _
  | resize width height => exact (Built.resizeScreen (.resize width height) _ _).map _
  | load image => exact (Built.load (.load image) image).map _
  | busLoad address data => exact (Built.busLoad address data).map _
  | busWrite address data => exact (Built.busWrite address data).map _
  | busRead address => exact (Built.busRead address).map _
  | takeLog => exact Built.takeLog.map _
  | addHook | removeHook | setTrace => exact (Built.onTrace _).map _

theorem HostAction.step_or_reset_or_built (a : HostAction) :
    a = .step ∨ a = .reset ∨ Built a.Moves a.act := by
  by_cases hs : a = .step
  · exact .inl hs
  · by_cases hr : a = .reset
    · exact .inr (.inl hr)
    · exact .inr (.inr (act_built hs hr))

/-- What the program relies on stays as it is between the cycles. -/
theorem HostAction.act_changes {a : HostAction} (hs : a ≠ .step) (hr : a ≠ .reset) (m : Machine) :
    a.Change m.state (left (a.act m)).state := by
  have hbuilt := (act_built hs hr).mono fun _ _ => Moves.change
  exact hbuilt.left_changes (Change.refl a) (fun _ _ _ => Change.trans) m

/-- Between the cycles a machine does not begin to wait for a key. -/
theorem HostAction.act_blocking {a : HostAction} (hs : a ≠ .step) (hr : a ≠ .reset) {m : Machine}
    (h : (left (a.act m)).state.blocking = true) : m.state.blocking = true := by
  let R (s t : State) : Prop := t.blocking = true → s.blocking = true
  have hbuilt : Built R a.act := (act_built hs hr).mono fun _ _ => Moves.blocking
  exact hbuilt.left_changes (R := R) (fun _ => id) (fun _ _ _ hst htu => hst ∘ htu) m h

/-- What only a cycle can bring about, and a reset undoes, was brought about by a cycle that no reset
followed. -/
theorem session_last {P : Machine → Prop} {actions : List HostAction} {m₀ : Machine}
    (hreset : ∀ m, ¬ P (left (Machine.reset m)))
    (hother : ∀ (a : HostAction) m, a ≠ .step → a ≠ .reset → P (left (a.act m)) → P m) (h₀ : ¬ P m₀)
    (hP : P (session actions m₀)) :
    ∃ before after, actions = before ++ .step :: after ∧ .reset ∉ after ∧
      ¬ P (session before m₀) ∧ P (left (session before m₀).step) := by
  induction actions using List.reverseRecOn with
  | nil => exact absurd hP h₀
  | append_singleton actions a ih =>
    have hlast : session (actions ++ [a]) m₀ = left (a.act (session actions m₀)) :=
      session_append actions [a] m₀
    rw [hlast] at hP
    have hr : a ≠ .reset := by
      rintro rfl
      rw [HostAction.act, left_map] at hP
      exact hreset _ hP
    by_cases hbefore : P (session actions m₀)
    · obtain ⟨before, after, rfl, hafter, hnot, hthen⟩ := ih hbefore
      exact ⟨before, after ++ [a], by simp, by simp [hafter, Ne.symm hr], hnot, hthen⟩
    · by_cases hs : a = .step
      · subst hs
        rw [HostAction.act, left_map] at hP
        exact ⟨actions, [], rfl, List.not_mem_nil, hbefore, hP⟩
      · exact absurd (hother a _ hs hr hP) hbefore

end SpriteVM
