import SpriteVM.Machine

namespace SpriteVM

variable {ε σ α β : Type}

/-- Begun in `s`, an action returns an answer and a state as `Q` says, or fails as `E` says. -/
def Ends (act : EStateM ε σ α) (Q : α → σ → Prop) (E : ε → σ → Prop) (s : σ) : Prop :=
  match act s with
  | .ok a t => Q a t
  | .error f t => E f t

namespace Ends

variable {act : EStateM ε σ α} {Q R : α → σ → Prop} {E F : ε → σ → Prop} {s : σ}

theorem ok {a : α} {t : σ} (h : Ends act Q E s) (hr : act s = .ok a t) : Q a t := by
  simpa only [Ends, hr] using h

theorem error {f : ε} {t : σ} (h : Ends act Q E s) (hr : act s = .error f t) : E f t := by
  simpa only [Ends, hr] using h

theorem of_forall (hq : ∀ a t, act s = .ok a t → Q a t) (he : ∀ f t, act s = .error f t → E f t) :
    Ends act Q E s := by
  unfold Ends
  cases hr : act s with
  | ok a t => exact hq a t hr
  | error f t => exact he f t hr

theorem imp (h : Ends act Q E s) (hq : ∀ a t, Q a t → R a t) (he : ∀ f t, E f t → F f t) :
    Ends act R F s :=
  of_forall (fun a t hr => hq a t (h.ok hr)) fun f t hr => he f t (h.error hr)

/-- What is known of the state that is left, however the action ends. -/
theorem mono {P P' : σ → Prop} (h : Ends act (fun _ t => P t) (fun _ t => P t) s)
    (hp : ∀ t, P t → P' t) : Ends act (fun _ t => P' t) (fun _ t => P' t) s :=
  h.imp (fun _ t => hp t) fun _ t => hp t

theorem congr_ok (hq : ∀ a t, act s = .ok a t → (Q a t ↔ R a t)) (he : ∀ f t, E f t ↔ F f t) :
    Ends act Q E s ↔ Ends act R F s := by
  constructor
  · intro h
    exact of_forall (fun a t hr => (hq a t hr).1 (h.ok hr)) fun f t hr => (he f t).1 (h.error hr)
  · intro h
    exact of_forall (fun a t hr => (hq a t hr).2 (h.ok hr)) fun f t hr => (he f t).2 (h.error hr)

theorem congr (hq : ∀ a t, Q a t ↔ R a t) (he : ∀ f t, E f t ↔ F f t) :
    Ends act Q E s ↔ Ends act R F s :=
  congr_ok (fun a t _ => hq a t) he

theorem and (h : Ends act Q E s) (h' : Ends act R F s) :
    Ends act (fun a t => Q a t ∧ R a t) (fun f t => E f t ∧ F f t) s :=
  of_forall (fun _ _ hr => ⟨h.ok hr, h'.ok hr⟩) fun _ _ hr => ⟨h.error hr, h'.error hr⟩

end Ends

theorem ends_self {P : EStateM.Result ε σ α → Prop} {act : EStateM ε σ α} {s : σ} :
    Ends act (fun a t => P (.ok a t)) (fun f t => P (.error f t)) s ↔ P (act s) := by
  unfold Ends
  cases act s <;> rfl

/-- An action fails for one of these causes, or ends with none of them at hand. -/
def EndsByCause (P : ε → Prop) (act : EStateM ε σ α) (s : σ) : Prop :=
  Ends act (fun _ _ => ∀ f, ¬ P f) (fun f _ => P f) s

theorem EndsByCause.fails_iff {P : ε → Prop} {act : EStateM ε σ α} {s : σ}
    (h : EndsByCause P act s) (hu : ∀ f g, P f → P g → f = g) (f : ε) :
    (∃ t, act s = .error f t) ↔ P f := by
  constructor
  · rintro ⟨t, hr⟩
    exact h.error hr
  · intro hf
    cases hr : act s with
    | ok a t => exact absurd hf (h.ok hr f)
    | error g t =>
      obtain rfl := hu f g hf (h.error hr)
      exact ⟨t, rfl⟩

theorem EndsByCause.returns_iff {P : ε → Prop} {act : EStateM ε σ α} {s : σ}
    (h : EndsByCause P act s) : (∃ a t, act s = .ok a t) ↔ ∀ f, ¬ P f := by
  constructor
  · rintro ⟨a, t, hr⟩
    exact h.ok hr
  · intro hn
    cases hr : act s with
    | ok a t => exact ⟨a, t, rfl⟩
    | error f t => exact absurd (h.error hr) (hn f)

variable {Q : β → σ → Prop} {E : ε → σ → Prop}

/-- The second action begins where the first ends. -/
theorem ends_bind (act : EStateM ε σ α) (next : α → EStateM ε σ β) (s : σ) :
    Ends (act >>= next) Q E s ↔ Ends act (fun a => Ends (next a) Q E) E s := by
  change Ends (EStateM.bind act next) Q E s ↔ _
  unfold Ends EStateM.bind
  cases act s <;> rfl

theorem throw_bind (f : ε) (next : α → EStateM ε σ β) :
    (throw f : EStateM ε σ α) >>= next = throw f := rfl

theorem bind_of_ok {act : EStateM ε σ α} {next : α → EStateM ε σ β} {a : α} {s t : σ}
    (h : act s = .ok a t) : (act >>= next) s = next a t := by
  change EStateM.bind act next s = _
  rw [EStateM.bind, h]

theorem bind_of_error {act : EStateM ε σ α} {next : α → EStateM ε σ β} {f : ε} {s t : σ}
    (h : act s = .error f t) : (act >>= next) s = .error f t := by
  change EStateM.bind act next s = _
  rw [EStateM.bind, h]

theorem bind_eq_ok {act : EStateM ε σ α} {next : α → EStateM ε σ β} {b : β} {s u : σ} :
    (act >>= next) s = .ok b u ↔ ∃ a t, act s = .ok a t ∧ next a t = .ok b u := by
  cases h : act s with
  | ok a t =>
    rw [bind_of_ok h]
    constructor
    · exact fun hn => ⟨a, t, rfl, hn⟩
    · rintro ⟨a', t', he, hn⟩
      obtain ⟨rfl, rfl⟩ := EStateM.Result.ok.inj he
      exact hn
  | error f t => simp [bind_of_error h]

theorem map_of_ok {act : EStateM ε σ α} {a : α} {s t : σ} (g : α → β) (h : act s = .ok a t) :
    (g <$> act) s = .ok (g a) t := by
  change EStateM.map g act s = _
  rw [EStateM.map, h]

theorem map_of_error {act : EStateM ε σ α} {f : ε} {s t : σ} (g : α → β)
    (h : act s = .error f t) : (g <$> act) s = .error f t := by
  change EStateM.map g act s = _
  rw [EStateM.map, h]

theorem map_eq_ok {act : EStateM ε σ α} {g : α → β} {b : β} {s t : σ} :
    (g <$> act) s = .ok b t ↔ ∃ a, act s = .ok a t ∧ g a = b := by
  cases h : act s with
  | ok a u =>
    rw [map_of_ok g h]
    simp only [EStateM.Result.ok.injEq]
    constructor
    · rintro ⟨rfl, rfl⟩
      exact ⟨a, ⟨rfl, rfl⟩, rfl⟩
    · rintro ⟨a', ⟨rfl, rfl⟩, rfl⟩
      exact ⟨rfl, rfl⟩
  | error f u => simp [map_of_error g h]

theorem map_eq_error {act : EStateM ε σ α} {g : α → β} {f : ε} {s t : σ} :
    (g <$> act) s = .error f t ↔ act s = .error f t := by
  cases h : act s with
  | ok a u => simp [map_of_ok g h]
  | error f u => simp [map_of_error g h]

@[simp] theorem ends_pure (a : β) (s : σ) : Ends (pure a : EStateM ε σ β) Q E s ↔ Q a s := Iff.rfl

@[simp] theorem ends_throw (f : ε) (s : σ) : Ends (throw f : EStateM ε σ β) Q E s ↔ E f s := Iff.rfl

@[simp] theorem ends_get {Q : σ → σ → Prop} (s : σ) : Ends (get : EStateM ε σ σ) Q E s ↔ Q s s :=
  Iff.rfl

@[simp] theorem ends_modify {Q : PUnit → σ → Prop} (g : σ → σ) (s : σ) :
    Ends (modify g : EStateM ε σ PUnit) Q E s ↔ Q ⟨⟩ (g s) := Iff.rfl

theorem ends_discard {Q : PUnit → σ → Prop} (act : EStateM ε σ α) (s : σ) :
    Ends (discard act) Q E s ↔ Ends act (fun _ t => Q ⟨⟩ t) E s := by
  change Ends (EStateM.map (Function.const α PUnit.unit) act) Q E s ↔ _
  unfold Ends EStateM.map
  cases act s <;> rfl

/-- Whether it returns or fails, an action keeps to what `I` says. -/
def Keeps (I : σ → Prop) (act : EStateM ε σ α) : Prop :=
  ∀ s, I s → Ends act (fun _ t => I t) (fun _ t => I t) s

theorem Keeps.pure (I : σ → Prop) (a : α) : Keeps I (Pure.pure a : EStateM ε σ α) := fun _ hs => hs

theorem Keeps.bind {I : σ → Prop} {act : EStateM ε σ α} {next : α → EStateM ε σ β}
    (h : Keeps I act) (hn : ∀ a, Keeps I (next a)) : Keeps I (act >>= next) := by
  intro s hs
  rw [ends_bind]
  exact (h s hs).imp (fun a t ht => hn a t ht) fun _ _ ht => ht

theorem Keeps.map {I : σ → Prop} {act : EStateM ε σ α} (h : Keeps I act) (g : α → β) :
    Keeps I (g <$> act) := by
  intro s hs
  have hs := h s hs
  change Ends (EStateM.map g act) _ _ s
  unfold Ends EStateM.map at *
  cases hr : act s <;> simpa only [hr] using hs

/-- The state an outcome leaves, be it a success or a failure. -/
def left : EStateM.Result ε σ α → σ
  | .ok _ t => t
  | .error _ t => t

theorem ends_left {P : σ → Prop} {act : EStateM ε σ α} {s : σ} :
    Ends act (fun _ t => P t) (fun _ t => P t) s ↔ P (left (act s)) :=
  ends_self (P := fun r => P (left r))

theorem left_map (act : EStateM ε σ α) (g : α → β) (s : σ) :
    left ((g <$> act) s) = left (act s) := by
  cases hr : act s with
  | ok a t => rw [map_of_ok g hr, left, left]
  | error f t => rw [map_of_error g hr, left, left]

theorem Keeps.left {I : σ → Prop} {act : EStateM ε σ α} (h : Keeps I act) {s : σ} (hs : I s) :
    I (left (act s)) :=
  ends_left.1 (h s hs)

namespace Core

variable {Q : α → Core → Prop} {E : Fault → Core → Prop}

theorem ends_onState (act : EStateM Fault State α) (c : Core) :
    Ends (onState act) Q E c ↔
      Ends act (fun a s => Q a ⟨s, c.bus⟩) (fun f s => E f ⟨s, c.bus⟩) c.state := by
  unfold Ends onState
  dsimp only
  cases act c.state <;> rfl

theorem ends_onBus (act : EStateM Fault Bus α) (c : Core) :
    Ends (onBus act) Q E c ↔
      Ends act (fun a b => Q a ⟨c.state, b⟩) (fun f b => E f ⟨c.state, b⟩) c.bus := by
  unfold Ends onBus
  dsimp only
  cases act c.bus <;> rfl

@[simp] theorem ends_update {Q : Unit → Core → Prop} (change : State → State) (c : Core) :
    Ends (update change) Q E c ↔ Q () ⟨change c.state, c.bus⟩ := Iff.rfl

@[simp] theorem ends_read (view : State → α) (c : Core) :
    Ends (read view) Q E c ↔ Q (view c.state) c := Iff.rfl

end Core

namespace Machine

variable {Q : α → Machine → Prop} {E : Fault → Machine → Prop}

theorem ends_onCore (act : Exec α) (m : Machine) :
    Ends (onCore act) Q E m ↔
      Ends act (fun a c => Q a { m with core := c }) (fun f c => E f { m with core := c }) m.core := by
  unfold Ends onCore
  dsimp only
  cases act m.core <;> rfl

theorem ends_onBus (act : EStateM Fault Bus α) (m : Machine) :
    Ends (onBus act) Q E m ↔
      Ends act (fun a b => Q a { m with core := ⟨m.state, b⟩ })
        (fun f b => E f { m with core := ⟨m.state, b⟩ }) m.bus := by
  rw [onBus, ends_onCore, Core.ends_onBus]
  rfl

theorem ends_onTrace (act : EStateM Fault Trace α) (m : Machine) :
    Ends (onTrace act) Q E m ↔
      Ends act (fun a t => Q a { m with trace := t }) (fun f t => E f { m with trace := t })
        m.trace := by
  unfold Ends onTrace
  dsimp only
  cases act m.trace <;> rfl

@[simp] theorem ends_update {Q : Unit → Machine → Prop} (change : State → State) (m : Machine) :
    Ends (update change) Q E m ↔ Q () { m with core := ⟨change m.state, m.bus⟩ } := Iff.rfl

@[simp] theorem ends_inspect (view : State → α) (m : Machine) :
    Ends (inspect view) Q E m ↔ Q (view m.state) m := Iff.rfl

theorem inspect_of {view : State → α} {m : Machine} {a : α} (h : view m.state = a) :
    inspect view m = .ok a m := by
  rw [← h]
  rfl

@[simp] theorem ends_takeLog {Q : List Access → Machine → Prop} (m : Machine) :
    Ends takeLog Q E m ↔ Q m.bus.log { m with core := ⟨m.state, { m.bus with log := [] }⟩ } :=
  Iff.rfl

end Machine

end SpriteVM
