import SpriteVM.Proofs.Outcome

namespace SpriteVM

namespace State

def KeyHeld (s : State) : Prop := ∃ k : Fin 16, s.keys.get k = true

theorem lowestKey?_eq_none {s : State} : s.lowestKey? = none ↔ ¬ s.KeyHeld := by
  have hget (k : Fin 16) : s.keys.get k = s.keys[k] := rfl
  simp [lowestKey?, KeyHeld, hget, List.find?_eq_none]

theorem keyHeld_of_lowestKey? {s : State} {key : Fin 16} (h : s.lowestKey? = some key) :
    s.KeyHeld :=
  ⟨key, List.find?_some h⟩

theorem lowestKey?_eq_some {s : State} {key : Fin 16} :
    s.lowestKey? = some key ↔ s.keys.get key = true ∧ ∀ j < key, s.keys.get j = false := by
  have hget (k : Fin 16) : s.keys.get k = s.keys[k] := rfl
  rw [lowestKey?, List.find?_eq_some_iff_getElem, hget]
  refine and_congr_right fun _ => ⟨?_, fun h => ?_⟩
  · rintro ⟨n, hn, rfl, hbelow⟩ j hj
    have hj' : j.val < n := by simpa [Fin.lt_def] using hj
    simpa [hget] using hbelow j.val hj'
  · refine ⟨key.val, by simp, by simp, fun j hj => ?_⟩
    have hlow := h ⟨j, by omega⟩ hj
    simpa [hget] using hlow

theorem any_keys {s : State} : s.keys.any id = true ↔ s.KeyHeld := by
  simp only [KeyHeld, Vector.any_eq_true, id_eq]
  constructor
  · rintro ⟨k, hk, hdown⟩
    exact ⟨⟨k, hk⟩, hdown⟩
  · rintro ⟨k, hdown⟩
    exact ⟨k.val, k.isLt, hdown⟩

instance (s : State) : Decidable s.KeyHeld := decidable_of_iff _ any_keys

end State

namespace Machine

variable {m t : Machine}

/-- The wait is over in `u`: register `x` reads as the key, and all else is as it was. -/
structure Answers (m : Machine) (x key : Fin 16) (u : Machine) : Prop where
  register : u.state.reg x = key.val
  others : ∀ y, y ≠ x → u.state.reg y = m.state.reg y
  rest : ∃ v, u = { m with core := ⟨{ m.state with v := v, blocking := false }, m.bus⟩ }

theorem answers_setReg (m : Machine) (x key : Fin 16) :
    m.Answers x key { m with core := ⟨{ m.state.setReg x key.val with blocking := false }, m.bus⟩ }
    where
  register := State.reg_setReg m.state x key.val
  others _ hy := State.reg_setReg_of_ne m.state hy.symm key.val
  rest := ⟨_, rfl⟩

/-- What looking for a held key comes to. It fails if the wait is for a register that is none. -/
inductive KeyOutcome (m : Machine) : EStateM.Result Fault Machine Bool → Prop
  | idle (hb : m.state.blocking = false) : KeyOutcome m (.ok false m)
  | unheld (hb : m.state.blocking = true) (hk : m.state.lowestKey? = none) :
    KeyOutcome m (.ok false m)
  | lost (hb : m.state.blocking = true) {key : Fin 16} (hk : m.state.lowestKey? = some key)
    (ht : slot? m.state.keyTarget = none) : KeyOutcome m (.error .slotWrite m)
  | pressed (hb : m.state.blocking = true) {key x : Fin 16} (hk : m.state.lowestKey? = some key)
    (ht : slot? m.state.keyTarget = some x) {u : Machine} (ha : m.Answers x key u) :
    KeyOutcome m (.ok true u)

theorem resolveKey_outcome (m : Machine) : KeyOutcome m m.resolveKey := by
  refine ends_self.1 ?_
  rw [resolveKey, ends_bind, ends_inspect]
  cases hb : m.state.blocking with
  | false => exact .idle hb
  | true =>
    simp only [Bool.not_true, Bool.false_eq_true, if_false]
    rw [ends_bind, ends_inspect]
    cases hk : m.state.lowestKey? with
    | none => exact .unheld hb hk
    | some key =>
      dsimp only
      rw [ends_bind, ends_inspect]
      cases ht : slot? m.state.keyTarget with
      | none => exact .lost hb hk ht
      | some x => exact .pressed hb hk ht (answers_setReg m x key)

/-- A look for a key changes no more than a register and whether the machine waits. -/
theorem resolveKey_rest {got : Bool} (hr : m.resolveKey = .ok got t) :
    ∃ v b, t = { m with core := ⟨{ m.state with v := v, blocking := b }, m.bus⟩ } := by
  have ho := resolveKey_outcome m
  rw [hr] at ho
  cases ho with
  | idle | unheld => exact ⟨m.state.v, m.state.blocking, rfl⟩
  | pressed _ _ _ ha =>
    obtain ⟨v, hv⟩ := ha.rest
    exact ⟨v, false, hv⟩

theorem resolveKey_error {f : Fault} (hr : m.resolveKey = .error f t) : t = m := by
  have ho := resolveKey_outcome m
  rw [hr] at ho
  cases ho
  rfl

/-- A held key ends the wait, and without one it goes on. -/
theorem resolveKey_blocking {got : Bool} (hr : m.resolveKey = .ok got t) :
    t.state.blocking = true ↔ m.state.blocking = true ∧ ¬ m.state.KeyHeld := by
  have ho := resolveKey_outcome m
  rw [hr] at ho
  cases ho with
  | idle hb => simp [hb]
  | unheld hb hk => simp [hb, State.lowestKey?_eq_none.1 hk]
  | pressed hb hk ht ha =>
    obtain ⟨-, -, v, rfl⟩ := ha
    have hheld := State.keyHeld_of_lowestKey? hk
    constructor
    · intro h
      exact absurd h Bool.false_ne_true
    · rintro ⟨-, hn⟩
      exact absurd hheld hn

end Machine

end SpriteVM
