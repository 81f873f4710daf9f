import SpriteVM.Proofs.Outcome

namespace SpriteVM

variable {ε σ τ α β : Type}

/-- What can be seen of an outcome: the answer or the fault, and a view of the state it leaves. -/
def seen (view : σ → τ) : EStateM.Result ε σ α → Except ε α × τ
  | .ok a s => (.ok a, view s)
  | .error f s => (.error f, view s)

theorem view_left (view : σ → τ) (r : EStateM.Result ε σ α) : view (left r) = (seen view r).2 := by
  cases r <;> rfl

/-- Both outcomes answer the same, or fail alike, and leave states that `S` relates. -/
inductive Related (S : σ → τ → Prop) : EStateM.Result ε σ α → EStateM.Result ε τ α → Prop
  | ok {a : α} {s : σ} {t : τ} (h : S s t) : Related S (.ok a s) (.ok a t)
  | error {f : ε} {s : σ} {t : τ} (h : S s t) : Related S (.error f s) (.error f t)

namespace Related

variable {S T : σ → τ → Prop} {r : EStateM.Result ε σ α} {r' : EStateM.Result ε τ α} {a : α} {f : ε}
  {s : σ}

theorem imp (h : Related S r r') (hS : ∀ s t, S s t → T s t) : Related T r r' := by
  cases h with
  | ok h => exact .ok (hS _ _ h)
  | error h => exact .error (hS _ _ h)

theorem of_ok (h : Related S (.ok a s) r') : ∃ t, r' = .ok a t ∧ S s t := by
  cases h with
  | ok h => exact ⟨_, rfl, h⟩

theorem of_error (h : Related S (.error f s : EStateM.Result ε σ α) r') :
    ∃ t, r' = .error f t ∧ S s t := by
  cases h with
  | error h => exact ⟨_, rfl, h⟩

end Related

/-- Begun in states that `S` relates, both actions answer the same or fail alike, and they leave states
that it relates. -/
def Lockstep (S : σ → τ → Prop) (act : EStateM ε σ α) (act' : EStateM ε τ α) : Prop :=
  ∀ s t, S s t → Related S (act s) (act' t)

namespace Lockstep

variable {S : σ → τ → Prop} {act : EStateM ε σ α} {act' : EStateM ε τ α}

theorem pure (a : α) : Lockstep S (Pure.pure a : EStateM ε σ α) (Pure.pure a : EStateM ε τ α) :=
  fun _ _ h => .ok h

theorem bind {next : α → EStateM ε σ β} {next' : α → EStateM ε τ β} (h : Lockstep S act act')
    (hn : ∀ a, Lockstep S (next a) (next' a)) : Lockstep S (act >>= next) (act' >>= next') := by
  intro s t hst
  have hfirst := h s t hst
  cases hr : act s with
  | ok a u =>
    rw [hr] at hfirst
    obtain ⟨w, hw, huw⟩ := hfirst.of_ok
    rw [bind_of_ok hr, bind_of_ok hw]
    exact hn a u w huw
  | error f u =>
    rw [hr] at hfirst
    obtain ⟨w, hw, huw⟩ := hfirst.of_error
    rw [bind_of_error hr, bind_of_error hw]
    exact .error huw

theorem map (h : Lockstep S act act') (g : α → β) : Lockstep S (g <$> act) (g <$> act') := by
  rw [← bind_pure_comp, ← bind_pure_comp]
  exact h.bind fun a => pure (g a)

end Lockstep

variable {view : σ → τ}

theorem seen_eq_ok {r : EStateM.Result ε σ α} {a : α} {x : τ} :
    seen view r = (.ok a, x) ↔ ∃ t, r = .ok a t ∧ view t = x := by
  cases r <;> simp [seen, and_assoc]

theorem seen_eq_error {r : EStateM.Result ε σ α} {f : ε} {x : τ} :
    seen view r = (.error f, x) ↔ ∃ t, r = .error f t ∧ view t = x := by
  cases r <;> simp [seen, and_assoc]

/-- Outcomes look the same if they are related by how their states look. -/
theorem seen_eq_iff {r r' : EStateM.Result ε σ α} :
    seen view r = seen view r' ↔ Related (fun s t => view s = view t) r r' := by
  constructor
  · intro h
    cases r with
    | ok a s =>
      obtain ⟨t, rfl, ht⟩ := seen_eq_ok.1 h.symm
      exact .ok ht.symm
    | error f s =>
      obtain ⟨t, rfl, ht⟩ := seen_eq_error.1 h.symm
      exact .error ht.symm
  · intro h
    cases h with
    | ok h | error h => simp only [seen, h]

theorem seen_map (act : EStateM ε σ α) (g : α → β) (s : σ) :
    seen view ((g <$> act) s) = Prod.map (Except.map g) id (seen view (act s)) := by
  cases hr : act s with
  | ok a t =>
    rw [map_of_ok g hr]
    rfl
  | error f t =>
    rw [map_of_error g hr]
    rfl

/-- Seen through an equivalence two states look the same exactly if they are related. -/
theorem eq_iff_related {S : σ → σ → Prop} (hS : Equivalence S) {s t : σ} : S s = S t ↔ S s t := by
  constructor
  · intro h
    rw [h]
    exact hS.refl t
  · intro h
    funext u
    exact propext ⟨hS.trans (hS.symm h), hS.trans h⟩

def Blind (view : σ → τ) (act : EStateM ε σ α) : Prop :=
  ∀ s t, view s = view t → seen view (act s) = seen view (act t)

namespace Blind

variable {act : EStateM ε σ α} {a : α} {f : ε} {s t u : σ}

/-- What one run answers, another from a state that looks the same answers too. -/
theorem ok (h : Blind view act) (hst : view s = view t) (hr : act s = .ok a u) :
    ∃ w, act t = .ok a w ∧ view u = view w := by
  have hact := seen_eq_iff.1 (h s t hst)
  rw [hr] at hact
  exact hact.of_ok

theorem error (h : Blind view act) (hst : view s = view t) (hr : act s = .error f u) :
    ∃ w, act t = .error f w ∧ view u = view w := by
  have hact := seen_eq_iff.1 (h s t hst)
  rw [hr] at hact
  exact hact.of_error

theorem pure (a : α) : Blind view (Pure.pure a : EStateM ε σ α) :=
  fun _ _ h => congrArg (Prod.mk (Except.ok a)) h

theorem throw (f : ε) : Blind view (MonadExcept.throw f : EStateM ε σ α) :=
  fun _ _ h => congrArg (Prod.mk (Except.error f)) h

theorem modify {g : σ → σ} (hg : ∀ s t, view s = view t → view (g s) = view (g t)) :
    Blind view (modify g : EStateM ε σ PUnit) :=
  fun s t h => congrArg (Prod.mk (Except.ok PUnit.unit)) (hg s t h)

theorem bind {next : α → EStateM ε σ β} (h : Blind view act) (hn : ∀ a, Blind view (next a)) :
    Blind view (act >>= next) := by
  intro s t hst
  cases hr : act s with
  | ok a u =>
    obtain ⟨w, hw, hview⟩ := h.ok hst hr
    rw [bind_of_ok hr, bind_of_ok hw]
    exact hn a u w hview
  | error f u =>
    obtain ⟨w, hw, hview⟩ := h.error hst hr
    rw [bind_of_error hr, bind_of_error hw, seen, seen, hview]

theorem map (h : Blind view act) (g : α → β) : Blind view (g <$> act) := by
  have hmap : g <$> act = act >>= fun a => Pure.pure (g a) := (bind_pure_comp g act).symm
  rw [hmap]
  exact h.bind fun a => pure (g a)

end Blind

end SpriteVM
