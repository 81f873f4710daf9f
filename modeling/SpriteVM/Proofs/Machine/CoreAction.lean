import SpriteVM.Proofs.Machine.Between

namespace SpriteVM

namespace Machine

variable {α β : Type} {act : Action α} {m : Machine}

theorem left_onCore (e : Exec α) (m : Machine) :
    left (onCore e m) = { m with core := left (e m.core) } := by
  unfold onCore
  dsimp only
  cases e m.core <;> rfl

/-- The action is one on state and bus, and on nothing else. -/
def OfCore (act : Action α) : Prop := ∃ e : Exec α, act = onCore e

namespace OfCore

theorem pure (a : α) : OfCore (Pure.pure a : Action α) := ⟨Pure.pure a, rfl⟩

theorem throw (f : Fault) : OfCore (MonadExcept.throw f : Action α) := ⟨MonadExcept.throw f, rfl⟩

theorem bind {next : α → Action β} (h : OfCore act) (hn : ∀ a, OfCore (next a)) :
    OfCore (act >>= next) := by
  obtain ⟨e, rfl⟩ := h
  choose rest hrest using hn
  refine ⟨e >>= rest, ?_⟩
  funext m
  cases he : e m.core with
  | ok a c =>
    have hfirst : onCore e m = .ok a { m with core := c } := by rw [onCore, he]
    have hboth : (e >>= rest) m.core = rest a c := bind_of_ok he
    rw [bind_of_ok hfirst, hrest, onCore, onCore, hboth]
  | error f c =>
    have hfirst : onCore e m = .error f { m with core := c } := by rw [onCore, he]
    have hboth : (e >>= rest) m.core = .error f c := bind_of_error he
    rw [bind_of_error hfirst, onCore, hboth]

theorem map (h : OfCore act) (g : α → β) : OfCore (g <$> act) := by
  rw [← bind_pure_comp]
  exact h.bind fun a => pure (g a)

theorem inspect (view : State → α) : OfCore (Machine.inspect view) := ⟨Core.read view, rfl⟩

theorem update (change : State → State) : OfCore (Machine.update change) :=
  ⟨Core.update change, rfl⟩

theorem onBus (act : EStateM Fault Bus α) : OfCore (Machine.onBus act) := ⟨Core.onBus act, rfl⟩

theorem setKey (key : Int) (down : Bool) : OfCore (Machine.setKey key down) := by
  unfold Machine.setKey
  split
  · exact update _
  · exact throw _

theorem resolveKey : OfCore Machine.resolveKey := by
  refine (inspect _).bind fun blocking => ?_
  split
  · exact pure _
  · refine (inspect _).bind fun key => ?_
    cases key with
    | none => exact pure _
    | some key =>
      refine (inspect _).bind fun target => ?_
      cases slot? target with
      | none => exact throw _
      | some x => exact (update _).bind fun _ => pure _

theorem takeDraw : OfCore Machine.takeDraw :=
  (inspect _).bind fun drew => (update _).bind fun _ => pure drew

theorem resizeScreen (width height : Int) : OfCore (Machine.resizeScreen width height) := by
  unfold Machine.resizeScreen
  cases Screen.ofSize width height with
  | error f => exact throw _
  | ok screen => exact update _

theorem load (image : List UInt8) : OfCore (Program.load image) := by
  unfold Program.load
  split_ifs
  · rw [throw_bind]
    exact throw _
  · cases Program.header image with
    | error f => exact throw _
    | ok h =>
      refine (onBus _).bind fun _ => ?_
      cases h with
      | none => exact (resizeScreen _ _).bind fun _ => pure _
      | some h => exact (resizeScreen _ _).bind fun _ => pure _

end OfCore

end Machine

open Machine (OfCore)

/-- What a host action is on: a cycle, a reset, the hooks, or else nothing but state and bus. -/
inductive HostAction.Scope : HostAction → Prop
  | step : Scope .step
  | reset : Scope .reset
  | addHook (hook : Hook) : Scope (.addHook hook)
  | removeHook (name : String) : Scope (.removeHook name)
  | setTrace (on : Bool) : Scope (.setTrace on)
  | core {a : HostAction} (h : OfCore a.act) : Scope a

theorem HostAction.scope (a : HostAction) : a.Scope := by
  cases a with
  | step => exact .step
  | reset => exact .reset
  | addHook hook => exact .addHook hook
  | removeHook name => exact .removeHook name
  | setTrace on => exact .setTrace on
  | setKey key down => exact .core ((OfCore.setKey key down).map _)
  | resolveKey => exact .core (OfCore.resolveKey.map _)
  | tick => exact .core ((OfCore.update _).map _)
  | takeDraw => exact .core (OfCore.takeDraw.map _)
  | resize width height => exact .core ((OfCore.resizeScreen width height).map _)
  | load image => exact .core ((OfCore.load image).map _)
  | busLoad | busWrite | busRead | takeLog => exact .core ((OfCore.onBus _).map _)

end SpriteVM
