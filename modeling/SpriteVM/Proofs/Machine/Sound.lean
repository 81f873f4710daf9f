import SpriteVM.Proofs.Bus.Layout

namespace SpriteVM

namespace State

/-- The bounds of a state. The counter may run past the last address, by a skip at most to 0x1002,
and a call at the last address leaves 0x1000 to return to. -/
structure Sound (s : State) : Prop where
  reg : ∀ x, 0 ≤ s.reg x ∧ s.reg x ≤ 255
  sp : 0 ≤ s.sp ∧ s.sp ≤ 16
  index : 0 ≤ s.i ∧ s.i ≤ 0xFFF
  delay : 0 ≤ s.delayTimer ∧ s.delayTimer ≤ 255
  sound : 0 ≤ s.soundTimer ∧ s.soundTimer ≤ 255
  keyTarget : 0 ≤ s.keyTarget ∧ s.keyTarget ≤ 15
  pc : 0 ≤ s.pc ∧ s.pc ≤ 0x1002 ∧ s.pc % 2 = 0
  returns : ∀ k : Fin 16, (k.val : Int) < s.sp →
    2 ≤ s.stack[k] ∧ s.stack[k] ≤ 0x1000 ∧ s.stack[k] % 2 = 0

/-- A sound state whose counter is at an instruction. -/
structure Ready (s : State) : Prop extends Sound s where
  fetchable : s.pc < 0x1000

/-- A sound state together with what its parts are made of: sixteen registers, places of return and
keys, and a picture of at most 255 by 255 cells, each worth zero or one. -/
structure Bounded (s : State) : Prop extends Sound s where
  registers : s.v.toList.length = 16
  places : s.stack.toList.length = 16
  keypad : s.keys.toList.length = 16
  width : 1 ≤ s.screen.width ∧ s.screen.width ≤ 255
  height : 1 ≤ s.screen.height ∧ s.screen.height ≤ 255
  cells : s.screen.cells.size = s.screen.width * s.screen.height
  cell : ∀ lit ∈ s.screen.cells, lit.toNat = 0 ∨ lit.toNat = 1

theorem Sound.bounded {s : State} (h : s.Sound) : s.Bounded where
  toSound := h
  registers := by simp
  places := by simp
  keypad := by simp
  width := ⟨s.screen.width_pos, s.screen.width_le⟩
  height := ⟨s.screen.height_pos, s.screen.height_le⟩
  cells := s.screen.size_cells
  cell lit _ := by cases lit <;> simp

theorem initial_sound (seed : Int) : (initial seed).Sound where
  reg x := by simp [initial, State.reg]
  sp := by simp [initial]
  index := by simp [initial]
  delay := by simp [initial]
  sound := by simp [initial]
  keyTarget := by simp [initial]
  pc := by simp [initial, entryPoint]
  returns k hk := absurd hk (by simp [initial])

variable {s : State}

theorem Sound.setReg (h : s.Sound) (x : Fin 16) {value : Int} (hv : 0 ≤ value ∧ value ≤ 255) :
    (s.setReg x value).Sound :=
  { h with
    reg := by
      intro y
      by_cases hxy : x = y
      · subst hxy
        rw [reg_setReg]
        exact hv
      · rw [reg_setReg_of_ne s hxy]
        exact h.reg y }

theorem Ready.setReg (h : s.Ready) (x : Fin 16) {value : Int} (hv : 0 ≤ value ∧ value ≤ 255) :
    (s.setReg x value).Ready :=
  ⟨h.toSound.setReg x hv, h.fetchable⟩

theorem Ready.setFlagged (h : s.Ready) (x : Fin 16) {r : Flagged}
    (hv : 0 ≤ r.value ∧ r.value ≤ 255) (hf : 0 ≤ r.flag ∧ r.flag ≤ 255) :
    (s.setFlagged x r).Ready :=
  (h.setReg x hv).setReg flagRegister hf

/-- From an instruction the counter moves on by one instruction or two. -/
theorem Ready.advance (h : s.Ready) (skip : Bool) :
    ({ s with pc := s.pc + (if skip then 4 else 2) } : State).Sound :=
  { h.toSound with
    pc := by
      have hpc := h.pc
      have hlt := h.fetchable
      dsimp only
      cases skip <;> simp only [Bool.false_eq_true, if_false, if_true] <;> omega }

theorem Sound.jump (h : s.Sound) {target : Int} (hr : 0 ≤ target ∧ target < memorySize)
    (he : target % 2 = 0) : ({ s with pc := target } : State).Sound :=
  { h with
    pc := by
      unfold memorySize at hr
      dsimp only
      omega }

theorem slot?_val (k : Fin 16) : slot? (k.val : Int) = some k := by
  rw [slot?_eq_some (by omega)]
  simp

theorem push_full {address : Int} (h : s.sp = 16) :
    push address s = .error (.stackOverflow s.pc) s := by
  simp [push, h]

theorem push_free {address : Int} {k : Fin 16} (h : s.sp = k.val) :
    push address s = .ok () { s with stack := s.stack.set k address, sp := s.sp + 1 } := by
  have hk : ¬ (16 : Int) ≤ k.val := by omega
  simp only [push, h, if_neg hk, slot?_val]

theorem pop_empty (h : s.sp = 0) : pop s = .error (.stackUnderflow s.pc) s := by simp [pop, h]

theorem pop_top {k : Fin 16} (h : s.sp = k.val + 1) :
    pop s = .ok s.stack[k] { s with sp := k.val } := by
  have hk : ¬ (k.val : Int) + 1 ≤ 0 := by omega
  simp only [pop, h, if_neg hk, Int.add_sub_cancel, slot?_val]

theorem Sound.full_or_free (h : s.Sound) : s.sp = 16 ∨ ∃ k : Fin 16, s.sp = k.val := by
  have hs := h.sp
  by_cases hf : s.sp = 16
  · exact .inl hf
  · exact .inr ⟨⟨s.sp.toNat, by omega⟩, by dsimp only; omega⟩

theorem Sound.empty_or_top (h : s.Sound) : s.sp = 0 ∨ ∃ k : Fin 16, s.sp = k.val + 1 := by
  have hs := h.sp
  by_cases hz : s.sp = 0
  · exact .inl hz
  · exact .inr ⟨⟨(s.sp - 1).toNat, by omega⟩, by dsimp only; omega⟩

/-- A call from an instruction leaves a place to return to. -/
theorem Ready.push (h : s.Ready) {k : Fin 16} (hk : s.sp = k.val) :
    ({ s with stack := s.stack.set k (s.pc + 2), sp := s.sp + 1 } : State).Ready where
  toSound :=
    { h.toSound with
      sp := by
        dsimp only
        omega
      returns := by
        intro j hj
        have hpc := h.pc
        have hlt := h.fetchable
        dsimp only at hj ⊢
        by_cases hkj : k.val = j.val
        · simp only [Fin.getElem_fin, hkj, Vector.getElem_set_self]
          omega
        · simp only [Fin.getElem_fin, Vector.getElem_set_ne _ _ hkj]
          exact h.returns j (by omega) }
  fetchable := h.fetchable

/-- After a return the remaining places are still those that calls left. -/
theorem Sound.pop (h : s.Sound) {k : Fin 16} (hk : s.sp = k.val + 1) :
    ({ s with sp := k.val } : State).Sound :=
  { h with
    sp := by
      dsimp only
      omega
    returns := by
      intro j hj
      exact h.returns j (by dsimp only at hj; omega) }

theorem Sound.tick (h : s.Sound) : s.tick.Sound :=
  { h with
    delay := by
      have := h.delay
      simp only [State.tick, countDown]
      split <;> omega
    sound := by
      have := h.sound
      simp only [State.tick, countDown]
      split <;> omega }

end State

namespace Bits

theorem and_byte {a b : Int} (ha : 0 ≤ a) (hb : 0 ≤ b ∧ b ≤ 255) : 0 ≤ and a b ∧ and a b ≤ 255 := by
  obtain ⟨m, rfl⟩ := Int.eq_ofNat_of_zero_le ha
  obtain ⟨n, rfl⟩ := Int.eq_ofNat_of_zero_le hb.1
  have h : m &&& n ≤ n := Nat.and_le_right
  rw [and_natCast]
  omega

theorem or_byte {a b : Int} (ha : 0 ≤ a ∧ a ≤ 255) (hb : 0 ≤ b ∧ b ≤ 255) :
    0 ≤ or a b ∧ or a b ≤ 255 := by
  obtain ⟨m, rfl⟩ := Int.eq_ofNat_of_zero_le ha.1
  obtain ⟨n, rfl⟩ := Int.eq_ofNat_of_zero_le hb.1
  have h : m ||| n < 2 ^ 8 := Nat.or_lt_two_pow (by omega) (by omega)
  rw [or_natCast]
  omega

theorem xor_byte {a b : Int} (ha : 0 ≤ a ∧ a ≤ 255) (hb : 0 ≤ b ∧ b ≤ 255) :
    0 ≤ xor a b ∧ xor a b ≤ 255 := by
  obtain ⟨m, rfl⟩ := Int.eq_ofNat_of_zero_le ha.1
  obtain ⟨n, rfl⟩ := Int.eq_ofNat_of_zero_le hb.1
  have h : m ^^^ n < 2 ^ 8 := Nat.xor_lt_two_pow (by omega) (by omega)
  rw [xor_natCast]
  omega

end Bits

namespace Flagged

theorem sum_bytes (a b : Int) :
    (0 ≤ (sum a b).value ∧ (sum a b).value ≤ 255) ∧ 0 ≤ (sum a b).flag ∧ (sum a b).flag ≤ 255 := by
  unfold sum
  dsimp only
  split <;> omega

theorem difference_bytes (a b : Int) :
    (0 ≤ (difference a b).value ∧ (difference a b).value ≤ 255) ∧
      0 ≤ (difference a b).flag ∧ (difference a b).flag ≤ 255 := by
  unfold difference
  dsimp only
  split <;> omega

theorem halved_bytes (a : Int) :
    (0 ≤ (halved a).value ∧ (halved a).value ≤ 255) ∧
      0 ≤ (halved a).flag ∧ (halved a).flag ≤ 255 := by
  unfold halved
  dsimp only
  omega

theorem doubled_bytes (a : Int) :
    (0 ≤ (doubled a).value ∧ (doubled a).value ≤ 255) ∧
      0 ≤ (doubled a).flag ∧ (doubled a).flag ≤ 255 := by
  unfold doubled
  dsimp only
  omega

end Flagged

theorem State.Ready.drawRandom {s : State} (h : s.Ready) (x : Fin 16) {mask : Int}
    (hm : 0 ≤ mask ∧ mask ≤ 255) : (Core.drawRandom x mask s).Ready := by
  have hb := Bits.and_byte (a := s.random.nextByte.1) (by omega) hm
  exact State.Ready.setReg (s := { s with random := s.random.nextByte.2 }) { h with } x hb

theorem Font.address_index (digit : Int) : 0 ≤ Font.address digit ∧ Font.address digit ≤ 0xFFF := by
  unfold Font.address Font.base Font.glyphHeight
  omega

end SpriteVM
