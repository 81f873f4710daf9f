import SpriteVM.Proofs.Machine.Drawn
import SpriteVM.Proofs.Machine.Report

namespace SpriteVM

theorem spriteBit_natCast (row bit : Nat) : spriteBit row bit = row.testBit (7 - bit) := by
  have hdiv : (row : Int) / (Nat.pow 2 (7 - bit) : Nat) % 2 = ((row / 2 ^ (7 - bit) % 2 : Nat) : Int) := by
    push_cast
    rfl
  rw [spriteBit, hdiv, Nat.testBit_eq_decide_div_mod_eq, decide_eq_decide]
  omega

namespace Bus

theorem oneMemory_load {b : Bus} (hb : b.layout.OneMemory) (address : Int) (data : List UInt8) :
    (left (load address data b)).layout.OneMemory := by
  have hlayout : (left (load address data b)).layout = b.layout :=
    ends_left (P := fun t : Bus => t.layout = b.layout).1 (ends_load address data b)
  rw [hlayout]
  exact hb

end Bus

namespace Drawing

/-- The bit of the sprite that falls on a cell. The highest bit of a row stands on the column where the
drawing begins and the other seven to the right of it, and the rows stand one below the other. -/
def bit (g : Drawing) (c : Core) (x y : Nat) : Bool :=
  let left := g.left c.state
  let top := g.top c.state
  if (left ≤ x ∧ x < left + 8) ∧ top ≤ y ∧ y < top + g.rows.val then
    (c.bus.byte (c.state.i + (y - top : Nat))).toNat.testBit (7 - (x - left))
  else false

/-- The accesses of a drawing: its visible rows, from the top one on. -/
def reads (g : Drawing) (c : Core) : List Access :=
  (List.range (g.visible c.state)).map fun (k : Nat) =>
    ⟨.read, c.state.i + k, c.bus.byte (c.state.i + k)⟩

/-- The visible rows lie in memory. -/
def InMemory (g : Drawing) (s : State) : Prop := ∀ k < g.visible s, Bus.Inside (s.i + k)

/-- The drawing, begun in `c`, is all that happened up to `t`. -/
structure Result (g : Drawing) (c t : Core) : Prop where
  cell : ∀ x y, x < c.state.screen.width → y < c.state.screen.height →
    t.state.screen.lit x y = (c.state.screen.lit x y ^^ g.bit c x y)
  size : t.state.screen.width = c.state.screen.width ∧ t.state.screen.height = c.state.screen.height
  flag : t.state.flag = 0 ∨ t.state.flag = 1
  hit : t.state.flag = 1 ↔ ∃ x y, (x < c.state.screen.width ∧ y < c.state.screen.height) ∧
    g.bit c x y = true ∧ c.state.screen.lit x y = true
  /-- The counter has advanced and the picture was drawn on; of the registers only the flag is new. -/
  state : t.state = { c.state with
    pc := c.state.pc + 2
    v := c.state.v.set State.flagRegister t.state.flag
    screen := t.state.screen
    draw := true }
  /-- Memory is as it was, and the record tells of the visible rows, each once and in order. -/
  bus : t.bus = { c.bus with log := c.bus.log ++ g.reads c }

variable {g : Drawing} {c : Core} {x y : Nat}

/-- In the picture, the cells that the sprite covers are those on which one of its bits falls. -/
theorem sprite_eq_bit (hb : c.bus.layout.OneMemory) (hx : x < c.state.screen.width)
    (hy : y < c.state.screen.height) : g.sprite c x y = g.bit c x y := by
  have hrows : g.top c.state ≤ y ∧ y < g.top c.state + g.visible c.state ↔
      g.top c.state ≤ y ∧ y < g.top c.state + g.rows.val := by
    unfold visible
    omega
  have hbyte := (Bus.byte_range hb.memoryOnly (c.state.i + (y - g.top c.state : Nat))).1
  obtain ⟨row, hrow⟩ := Int.eq_ofNat_of_zero_le hbyte
  have hbit : spriteBit (c.bus.byte (c.state.i + (y - g.top c.state : Nat))) (x - g.left c.state) =
      row.testBit (7 - (x - g.left c.state)) := by
    rw [hrow]
    exact spriteBit_natCast row (x - g.left c.state)
  have hsprite : g.sprite c x y =
      (decide (g.top c.state ≤ y ∧ y < g.top c.state + g.rows.val) &&
        (decide (g.left c.state ≤ x ∧ x < g.left c.state + 8) &&
          row.testBit (7 - (x - g.left c.state)))) := by
    rw [sprite, decide_eq_true hx, Bool.true_and, rowsCover, Screen.covers, hbit,
      decide_eq_decide.2 hrows]
  have hnat : (c.bus.byte (c.state.i + (y - g.top c.state : Nat))).toNat = row := by
    rw [hrow]
    rfl
  rw [hsprite, bit, hnat]
  split_ifs with h
  · simp [h.1, h.2]
  · by_cases hleft : g.left c.state ≤ x ∧ x < g.left c.state + 8
    · have htop : ¬ (g.top c.state ≤ y ∧ y < g.top c.state + g.rows.val) := fun ht => h ⟨hleft, ht⟩
      simp only [decide_eq_false htop, Bool.false_and]
    · simp only [decide_eq_false hleft, Bool.false_and, Bool.and_false]

theorem readable_iff_inMemory (hb : c.bus.layout.OneMemory) :
    g.Readable c ↔ g.InMemory c.state := by
  unfold Readable InMemory Bus.RowsReadable
  simp only [Bus.peek_ok_iff hb]

end Drawing

namespace Core

variable {c t : Core} {d : Instruction} {g : Drawing}

/-- Rows change the picture and the record, and nothing else. -/
theorem drawRows_frame (left top : Nat) (address : Int) (n : Nat) (c : Core) :
    Ends (drawRows left top address n)
      (fun _ t => t.state = { c.state with screen := t.state.screen } ∧
        t.bus = { c.bus with log := t.bus.log })
      (fun _ _ => True) c := by
  induction n generalizing top address c with
  | zero => exact ⟨rfl, rfl⟩
  | succ n ih =>
    rw [drawRows, ends_bind, ends_onBus]
    refine Ends.of_forall (fun row b hread => ?_) fun _ _ _ => trivial
    obtain ⟨-, rfl⟩ := Bus.read_eq_ok hread
    rw [ends_bind, ends_drawRow, ends_bind]
    refine (ih (top + 1) (address + 1) _).imp (fun _ t h => ?_) fun _ _ _ => trivial
    obtain ⟨hstate, hbus⟩ := h
    constructor
    · rw [hstate]
    · rw [hbus]
      rfl

/-- What an instruction that draws changes besides the cells of the picture. -/
theorem execute_draws_frame (hd : d.Draws g) (c : Core) :
    Ends (execute d)
      (fun _ t => t.state = { c.state with
          pc := c.state.pc + 2
          v := c.state.v.set State.flagRegister t.state.flag
          screen := t.state.screen
          draw := true } ∧ t.bus = { c.bus with log := t.bus.log })
      (fun _ _ => True) c := by
  have hdraw : execute d = (do drawSprite d.x d.y d.nibble.val; advance false) := by
    rw [execute, hd.kind]
  rw [hdraw, ends_bind, drawSprite, ends_bind, ends_read, ends_bind]
  refine (drawRows_frame _ _ c.state.i _ c).imp (fun hit t h => ?_) fun _ _ _ => trivial
  obtain ⟨hstate, hbus⟩ := h
  refine ⟨?_, hbus⟩
  have hflag : State.flag (t.state.setReg State.flagRegister (if hit then 1 else 0)) =
      if hit then 1 else 0 := State.reg_setReg ..
  simp only [State.flag, State.reg, State.setReg] at hflag ⊢
  rw [hstate]
  simp

theorem execute_draws_log (hd : d.Draws g) (h : execute d c = .ok () t) :
    t.bus.log = c.bus.log ++ g.reads c := by
  have hlog := (execute_log d c).ok h
  have htraffic : d.traffic c.state c.bus.byte = g.reads c := by
    rw [Instruction.traffic, hd.kind, hd.y, hd.rows]
    rfl
  rw [hlog, htraffic]

/-- A drawing ends if and only if its visible rows lie in memory, and its result is that of the sprite
clipped to the picture: the rows below the lower edge are not read and cannot make it fail. -/
theorem execute_draws_clipped (hb : c.bus.layout.OneMemory) (hd : d.Draws g) :
    ((∃ t, execute d c = .ok () t) ↔ g.InMemory c.state) ∧
      ∀ t, execute d c = .ok () t → g.Result c t := by
  have hdraws := execute_draws hd c
  constructor
  · rw [← Drawing.readable_iff_inMemory hb]
    constructor
    · rintro ⟨t, h⟩
      exact (hdraws.ok h).2
    · intro hreadable
      cases h : execute d c with
      | ok _ t => exact ⟨t, rfl⟩
      | error f t => exact absurd hreadable (hdraws.error h)
  · intro t h
    obtain ⟨hdrew, -⟩ := hdraws.ok h
    obtain ⟨hstate, hbus⟩ := (execute_draws_frame hd c).ok h
    have hbit (x y : Nat) (hx : x < c.state.screen.width) (hy : y < c.state.screen.height) :
        g.sprite c x y = g.bit c x y := Drawing.sprite_eq_bit hb hx hy
    constructor
    case cell =>
      intro x y hx hy
      rw [hdrew.screen, Screen.lit_xored hx hy, hbit x y hx hy]
    case size =>
      rw [hdrew.screen]
      exact ⟨rfl, rfl⟩
    case flag => exact hdrew.flag
    case hit =>
      rw [hdrew.hit]
      constructor
      · rintro ⟨x, y, hcell, hlit⟩
        obtain ⟨hx, hy⟩ := Drawing.sprite_inside hcell
        exact ⟨x, y, ⟨hx, hy⟩, hbit x y hx hy ▸ hcell, hlit⟩
      · rintro ⟨x, y, ⟨hx, hy⟩, hcell, hlit⟩
        exact ⟨x, y, (hbit x y hx hy).trans hcell, hlit⟩
    case state => exact hstate
    case bus => rw [hbus, execute_draws_log hd h]

/-- A picture of two columns and five rows with one lit cell, and a sprite at the end of the memory
that is placed by the flag register. -/
def narrowPicture : Core where
  state :=
    { (State.initial 7).setReg State.flagRegister 13 with
      i := 0xFFE
      screen := (Screen.dark 2 5 (by decide) (by decide)).flip 7 }
  bus := left (Bus.load 0xFFE [0xFF, 0x80] Bus.blank)

/-- Only one column and two of the three rows lie in the picture. -/
theorem execute_draws_clipped_narrow : narrowPicture.bus.layout.OneMemory ∧
    (Instruction.decode 0xDFF3 0x200).Draws ⟨15, 15, 3⟩ ∧
    ∃ t, execute (Instruction.decode 0xDFF3 0x200) narrowPicture = .ok () t ∧
      t.state.flag = 1 ∧ t.state.screen.lit 1 3 = false ∧ t.state.screen.lit 1 4 = true ∧
      t.bus.log = [⟨.read, 0xFFE, 0xFF⟩, ⟨.read, 0xFFF, 0x80⟩] ∧ t.state.pc = 0x202 := by
  have hb : narrowPicture.bus.layout.OneMemory := by
    unfold narrowPicture
    dsimp only
    exact Bus.oneMemory_load Bus.blank_oneMemory 0xFFE [0xFF, 0x80]
  have hd : (Instruction.decode 0xDFF3 0x200).Draws ⟨15, 15, 3⟩ := by
    constructor <;> decide
  obtain ⟨hends, hresult⟩ := execute_draws_clipped hb hd
  have hvisible : Drawing.visible ⟨15, 15, 3⟩ narrowPicture.state = 2 := by decide +kernel
  have hmemory : Drawing.InMemory ⟨15, 15, 3⟩ narrowPicture.state := by
    intro k hk
    have hi : narrowPicture.state.i = 0xFFE := rfl
    rw [Bus.Inside, hi]
    omega
  obtain ⟨t, ht⟩ := hends.2 hmemory
  have h := hresult t ht
  obtain ⟨hlog, hcovered, hlit⟩ :
      narrowPicture.bus.log ++ Drawing.reads ⟨15, 15, 3⟩ narrowPicture =
          [⟨.read, 0xFFE, 0xFF⟩, ⟨.read, 0xFFF, 0x80⟩] ∧
        (Drawing.bit ⟨15, 15, 3⟩ narrowPicture 1 3 = true ∧
          Drawing.bit ⟨15, 15, 3⟩ narrowPicture 1 4 = true) ∧
        narrowPicture.state.screen.lit 1 3 = true ∧
          narrowPicture.state.screen.lit 1 4 = false := by decide +kernel
  refine ⟨hb, hd, t, ht, ?_, ?_, ?_, ?_, ?_⟩
  · exact h.hit.2 ⟨1, 3, by decide +kernel, hcovered.1, hlit.1⟩
  · rw [h.cell 1 3 (by decide +kernel) (by decide +kernel), hcovered.1, hlit.1, Bool.xor_self]
  · rw [h.cell 1 4 (by decide +kernel) (by decide +kernel), hcovered.2, hlit.2, Bool.false_xor]
  · rw [h.bus]
    exact hlog
  · have hpc : t.state.pc = narrowPicture.state.pc + 2 := by rw [h.state]
    exact hpc

end Core

end SpriteVM
