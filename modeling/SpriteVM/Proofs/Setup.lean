import SpriteVM.Proofs.Config.Accepted
import SpriteVM.Proofs.Machine.Between
import SpriteVM.Proofs.Machine.Loading
import SpriteVM.Proofs.Machine.Session
import SpriteVM.Setup

namespace SpriteVM

namespace Machine

/-- A machine as it is set up: within bounds, on one memory, with no hooks, and it has not quit. -/
structure Prepared (m : Machine) : Prop where
  sound : m.Sound Bus.blank.layout
  hooks : m.trace.hooks = []
  quit : m.state.quit = false

/-- The action returns from a prepared machine, and it leaves a prepared one. -/
def Prepares {α : Type} (act : Action α) : Prop :=
  ∀ m, Prepared m → Ends act (fun _ t => t.Prepared) (fun _ _ => False) m

namespace Prepares

variable {α β : Type}

theorem pure (a : α) : Prepares (Pure.pure a : Action α) := fun _ hm => hm

theorem bind {act : Action α} {next : α → Action β} (h : Prepares act)
    (hn : ∀ a, Prepares (next a)) : Prepares (act >>= next) := by
  intro m hm
  rw [ends_bind]
  exact (h m hm).imp (fun a t ht => hn a t ht) fun _ _ hf => hf

theorem setTrace (change : Bool → Bool) :
    Prepares (onTrace (modify fun t => { t with enabled := change t.enabled })) := by
  intro m hm
  rw [ends_onTrace, ends_modify]
  exact ⟨⟨hm.sound.state, hm.sound.layout⟩, hm.hooks, hm.quit⟩

theorem setKey {key : Int} (hk : IsKey key) (down : Bool) : Prepares (setKey key down) := by
  intro m hm
  have hkey : 0 ≤ key ∧ key < 16 := hk
  unfold Machine.setKey
  rw [dif_pos hkey, ends_update]
  exact ⟨⟨{ hm.sound.state with }, hm.sound.layout⟩, hm.hooks, hm.quit⟩

theorem load {image : List UInt8} (hn : ∀ f, ¬ Program.Refused image f) :
    Prepares (Program.load image) := by
  intro m hm
  have hb : m.bus.layout.OneMemory := hm.sound.layout ▸ Bus.blank_oneMemory
  obtain ⟨o, b, screen, -, -, -, -, hload⟩ := Program.load_of_accepted hb hn
  have hsound := (load_keeps image m hm.sound).ok hload
  rw [Ends, hload]
  exact ⟨hsound, hm.hooks, hm.quit⟩

end Prepares

theorem create_prepared (seed : Int) : ∃ m, create Bus.blank seed = .ok m ∧ m.Prepared := by
  obtain ⟨m, hm⟩ := create_ok Bus.blank_oneMemory seed
  have hsound := create_sound hm
  obtain ⟨u, -, rfl⟩ := create_eq_ok.1 hm
  exact ⟨_, hm, hsound, rfl, rfl⟩

end Machine

namespace Setup

open Machine (Prepares)

variable {fs : Files} {path : String} {f : Fault} {s : Settings}

/-- Why no program is loaded from a file. -/
inductive Unloadable (fs : Files) (path : String) : Fault → Prop
  | unreadable {f : Fault} (hr : fs.read path = .error f) : Unloadable fs path f
  | refused {image : List UInt8} {f : Fault} (hr : fs.read path = .ok image)
    (hf : Program.Refused image f) : Unloadable fs path f

theorem holdKeys_prepares {keys : List Int} (h : ∀ k ∈ keys, IsKey k) : Prepares (holdKeys keys) := by
  induction keys with
  | nil => exact Prepares.pure ()
  | cons key rest ih =>
    obtain ⟨hkey, hrest⟩ := List.forall_mem_cons.1 h
    exact (Prepares.setKey hkey true).bind fun _ => ih hrest

theorem loadProgram_prepares (hn : ∀ f, ¬ Unloadable fs path f) :
    Prepares (loadProgram fs (some path)) := by
  cases hr : fs.read path with
  | error f => exact absurd (.unreadable hr) (hn f)
  | ok image =>
    have hload := Prepares.load fun f hf => hn f (.refused hr hf)
    unfold loadProgram
    dsimp only
    rw [hr]
    exact hload.bind fun _ => Prepares.pure _

theorem prepare_prepares (hs : s.Valid) (hn : ∀ f, ¬ Unloadable fs path f) :
    Prepares (prepare s fs (some path)) :=
  (Prepares.setTrace (· || s.trace)).bind fun _ => (loadProgram_prepares hn).bind fun _ =>
    (holdKeys_prepares hs.keys).bind fun _ => Prepares.pure _

/-- Without a program there is nothing to load. -/
theorem prepare_none_prepares (hs : s.Valid) : Prepares (prepare s fs none) :=
  (Prepares.setTrace (· || s.trace)).bind fun _ => (Prepares.pure none).bind fun _ =>
    (holdKeys_prepares hs.keys).bind fun _ => Prepares.pure _

theorem loadProgram_of_unloadable (h : Unloadable fs path f) (m : Machine) :
    loadProgram fs (some path) m = .error f m := by
  unfold loadProgram
  dsimp only
  cases h with
  | unreadable hr =>
    rw [hr]
    rfl
  | refused hr hf =>
    rw [hr]
    exact bind_of_error (Program.load_of_refused hf m)

theorem prepare_of_unloadable (h : Unloadable fs path f) (s : Settings) (m : Machine) :
    ∃ t, prepare s fs (some path) m = .error f t := by
  have htrace : Machine.onTrace (modify fun t => { t with enabled := t.enabled || s.trace }) m =
      .ok () { m with trace := { m.trace with enabled := m.trace.enabled || s.trace } } := rfl
  have hload := loadProgram_of_unloadable h
    { m with trace := { m.trace with enabled := m.trace.enabled || s.trace } }
  refine ⟨{ m with trace := { m.trace with enabled := m.trace.enabled || s.trace } }, ?_⟩
  rw [prepare, bind_of_ok htrace]
  exact bind_of_error hload

/-- A path that is given goes before that of the settings. -/
theorem programPath_given (hp : path ≠ "") (s : Settings) : programPath (some path) s = some path := by
  have hnonempty : path.isEmpty = false := by simpa using hp
  simp [programPath, Option.filter, hnonempty]

theorem programPath_ne_empty {given : Option String} (hp : programPath given s = some path) :
    path ≠ "" := by
  have hnonempty := (Option.filter_eq_some_iff.1 hp).2
  simpa using hnonempty

theorem build_eq {given : Option String} {entropy : Int} {m : Machine}
    (hm : Machine.create Bus.blank (s.seed.getD entropy) = .ok m) :
    build s given fs entropy = match prepare s fs (programPath given s) m with
      | .ok loaded machine => .ok ⟨machine, loaded⟩
      | .error f _ => .error f := by
  simp only [build, Bus.memoryBus_eq, bind, Except.bind, hm]
  rfl

theorem build_of_unloadable (hp : path ≠ "") (h : Unloadable fs path f) (s : Settings)
    (entropy : Int) : build s (some path) fs entropy = .error f := by
  obtain ⟨m, hm, -⟩ := Machine.create_prepared (s.seed.getD entropy)
  obtain ⟨t, ht⟩ := prepare_of_unloadable h s m
  rw [build_eq hm, programPath_given hp, ht]

/-- Nothing else stands in the way of a machine. -/
theorem build_of_loadable (hp : path ≠ "") (hs : s.Valid) (hn : ∀ f, ¬ Unloadable fs path f)
    (entropy : Int) :
    ∃ setup, build s (some path) fs entropy = .ok setup ∧ setup.machine.Prepared := by
  obtain ⟨m, hm, hprepared⟩ := Machine.create_prepared (s.seed.getD entropy)
  have hends := prepare_prepares hs hn m hprepared
  cases hr : prepare s fs (some path) m with
  | error f t => exact (hends.error hr).elim
  | ok loaded t =>
    refine ⟨⟨t, loaded⟩, ?_, hends.ok hr⟩
    rw [build_eq hm, programPath_given hp, hr]

/-- Every machine that is set up is set up like this. -/
theorem build_prepared {setup : Setup} {entropy : Int} (hp : path ≠ "") (hs : s.Valid)
    (hb : build s (some path) fs entropy = .ok setup) : setup.machine.Prepared := by
  by_cases hf : ∃ f, Unloadable fs path f
  · obtain ⟨f, hf⟩ := hf
    rw [build_of_unloadable hp hf s entropy] at hb
    cases hb
  · obtain ⟨setup', hb', hm⟩ := build_of_loadable hp hs (not_exists.1 hf) entropy
    obtain rfl := Except.ok.inj (hb.symm.trans hb')
    exact hm

section Keys

variable {α β : Type} {given : Option String} {entropy : Int} {setup : Setup}

/-- Where the action returns, these keys are held besides those that were held before. -/
def Presses (keys : List Int) (act : Action α) : Prop :=
  ∀ m, Ends act (fun _ t => ∀ k : Fin 16, t.state.keys.get k = true ↔
    m.state.keys.get k = true ∨ (k.val : Int) ∈ keys) (fun _ _ => True) m

namespace Presses

variable {act : Action α} {keys more : List Int}

/-- An action that leaves the keys alone. -/
theorem of_built (h : Machine.Built (fun s t => t.keys = s.keys) act) : Presses [] act := by
  intro m
  have hkeys := Machine.Built.changes (R := fun s t => t.keys = s.keys) (fun _ => rfl)
    (fun _ _ _ hst htu => htu.trans hst) h m
  refine hkeys.imp (fun _ t ht k => ?_) fun _ _ _ => trivial
  rw [ht]
  simp

theorem bind {next : α → Action β} (h : Presses keys act) (hn : ∀ a, Presses more (next a)) :
    Presses (keys ++ more) (act >>= next) := by
  intro m
  rw [ends_bind]
  refine (h m).imp (fun a t ht => ?_) fun _ _ _ => trivial
  refine (hn a t).imp (fun _ u hu k => ?_) fun _ _ _ => trivial
  rw [hu k, ht k, List.mem_append, or_assoc]

theorem setKey (key : Int) : Presses [key] (Machine.setKey key true) := by
  intro m
  unfold Machine.setKey
  by_cases hkey : 0 ≤ key ∧ key < 16
  · rw [dif_pos hkey, Machine.ends_update]
    intro k
    have hsame : key.toNat = k.val ↔ (k.val : Int) ∈ [key] := by
      rw [List.mem_singleton]
      omega
    have hset : (m.state.keys.set key.toNat true (slot_lt hkey))[k.val] = true ↔
        key.toNat = k.val ∨ m.state.keys[k.val] = true := by
      rw [Vector.getElem_set]
      split_ifs with h <;> simp [h]
    rw [← hsame, or_comm]
    exact hset
  · rw [dif_neg hkey]
    trivial

theorem holdKeys (keys : List Int) : Presses keys (holdKeys keys) := by
  induction keys with
  | nil => exact of_built (.pure ())
  | cons key rest ih => exact (setKey key).bind fun _ => ih

end Presses

/-- A load does not touch the keys. -/
theorem loadProgram_built (fs : Files) (path : Option String) :
    Machine.Built (fun s t => t.keys = s.keys) (loadProgram fs path) := by
  have hload (image : List UInt8) :
      Machine.Built (fun s t => t.keys = s.keys) (Program.load image) := by
    refine (Machine.Built.load (a := .load image) (.load image) image).mono fun s t h => ?_
    cases h
    rfl
  unfold loadProgram
  cases path with
  | none => exact .pure _
  | some path =>
    dsimp only
    cases fs.read path with
    | error f => exact .throw f
    | ok image => exact (hload image).bind fun _ => .pure _

theorem prepare_presses (s : Settings) (fs : Files) (path : Option String) :
    Presses s.keys (prepare s fs path) := by
  have htrace : Presses [] (Machine.onTrace
      (modify fun t => { t with enabled := t.enabled || s.trace })) := .of_built (.onTrace _)
  have hall := htrace.bind fun _ => (Presses.of_built (loadProgram_built fs path)).bind fun loaded =>
    (Presses.holdKeys s.keys).bind fun _ => Presses.of_built (.pure loaded)
  have hkeys : [] ++ ([] ++ (s.keys ++ [])) = s.keys := by simp
  rw [hkeys] at hall
  exact hall

/-- On a machine that was built the keys of the settings are held, and no others. -/
theorem build_keys (h : build s given fs entropy = .ok setup) (k : Fin 16) :
    setup.machine.state.keys.get k = true ↔ (k.val : Int) ∈ s.keys := by
  obtain ⟨m, hm⟩ := Machine.create_ok Bus.blank_oneMemory (s.seed.getD entropy)
  have hpresses := prepare_presses s fs (programPath given s) m
  rw [build_eq hm] at h
  cases hr : prepare s fs (programPath given s) m with
  | error f t =>
    rw [hr] at h
    cases h
  | ok loaded t =>
    rw [hr] at h
    obtain rfl := Except.ok.inj h
    have hnone : m.state.keys.get k = false := by
      obtain ⟨u, -, rfl⟩ := Machine.create_eq_ok.1 hm
      exact Vector.getElem_replicate k.isLt
    have hall := hpresses.ok hr k
    simpa [hnone] using hall

end Keys

/-- A machine is built, or there is a program and it cannot be loaded. -/
theorem build_cases (hs : s.Valid) (given : Option String) (fs : Files) (entropy : Int) :
    (∃ path f, programPath given s = some path ∧ Unloadable fs path f ∧
        build s given fs entropy = .error f) ∨
      ∃ setup, build s given fs entropy = .ok setup := by
  obtain ⟨m, hm, hprepared⟩ := Machine.create_prepared (s.seed.getD entropy)
  rw [build_eq hm]
  have hbuilt {path : Option String} (hprepares : Prepares (prepare s fs path)) :
      ∃ loaded t, prepare s fs path m = .ok loaded t := by
    have hends := hprepares m hprepared
    cases hr : prepare s fs path m with
    | ok loaded t => exact ⟨loaded, t, rfl⟩
    | error f t => exact (hends.error hr).elim
  cases hp : programPath given s with
  | none =>
    obtain ⟨loaded, t, hr⟩ := hbuilt (prepare_none_prepares hs)
    rw [hr]
    exact .inr ⟨_, rfl⟩
  | some path =>
    by_cases hload : ∃ f, Unloadable fs path f
    · obtain ⟨f, hf⟩ := hload
      obtain ⟨t, ht⟩ := prepare_of_unloadable hf s m
      rw [ht]
      exact .inl ⟨path, f, rfl, hf, rfl⟩
    · obtain ⟨loaded, t, hr⟩ := hbuilt (prepare_prepares hs (not_exists.1 hload))
      rw [hr]
      exact .inr ⟨_, rfl⟩

/-- It is not for a key that a program cannot be loaded. -/
theorem Unloadable.not_key (h : Unloadable fs path f) : f.kind.isA .invalidKey = false := by
  cases h with
  | unreadable hr =>
    obtain ⟨cause, rfl⟩ := Files.read_eq_error hr
    cases cause <;> rfl
  | refused _ hf =>
    rw [hf.kind]
    rfl

end Setup

end SpriteVM
