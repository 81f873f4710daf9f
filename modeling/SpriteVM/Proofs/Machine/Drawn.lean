import SpriteVM.Proofs.Machine.SpriteCells

namespace SpriteVM

/-- A drawing as its operands ask for it: the registers of its place, and the number of its rows. -/
structure Drawing where
  x : Fin 16
  y : Fin 16
  rows : Fin 16
  deriving DecidableEq, Repr

/-- The instruction asks for this drawing. -/
structure Instruction.Draws (d : Instruction) (g : Drawing) : Prop where
  kind : d.kind = .draw
  x : d.x = g.x
  y : d.y = g.y
  rows : d.nibble = g.rows

namespace Drawing

/-- The column and the row where a drawing begins; both wrap around the picture. -/
def left (g : Drawing) (s : State) : Nat := (s.reg g.x % s.screen.width).toNat

def top (g : Drawing) (s : State) : Nat := (s.reg g.y % s.screen.height).toNat

/-- The number of rows that lie in the picture. -/
def visible (g : Drawing) (s : State) : Nat := min g.rows.val (s.screen.height - g.top s)

theorem top_add_visible_le (g : Drawing) (s : State) : g.top s + g.visible s ≤ s.screen.height := by
  have hpos := s.screen.height_pos
  have hlt : s.reg g.y % s.screen.height < s.screen.height := Int.emod_lt_of_pos _ (by omega)
  unfold visible top
  omega

/-- Whether a drawing begun in `c` covers a cell of the picture. What sticks out on the right or below
is left away. -/
def sprite (g : Drawing) (c : Core) (x y : Nat) : Bool :=
  decide (x < c.state.screen.width) &&
    rowsCover c.bus.byte c.state.i (g.left c.state) (g.top c.state) (g.visible c.state) x y

/-- A drawing covers cells of the picture only. -/
theorem sprite_inside {g : Drawing} {c : Core} {x y : Nat} (h : g.sprite c x y = true) :
    x < c.state.screen.width ∧ y < c.state.screen.height := by
  have hfits := g.top_add_visible_le c.state
  rw [sprite, rowsCover, Bool.and_eq_true, Bool.and_eq_true, decide_eq_true_iff,
    decide_eq_true_iff] at h
  omega

/-- All visible rows can be read. -/
def Readable (g : Drawing) (c : Core) : Prop :=
  c.bus.RowsReadable c.state.i (g.visible c.state)

end Drawing

namespace Screen

variable {s t : Screen} {cells : Nat → Nat → Bool} {x y : Nat}

/-- The picture with these cells flipped. -/
def xored (s : Screen) (cells : Nat → Nat → Bool) : Screen :=
  { s with
    cells := Array.ofFn fun k : Fin (s.width * s.height) =>
      s.cell k ^^ cells (k % s.width) (k / s.width)
    size_cells := Array.size_ofFn }

theorem lit_xored (hx : x < s.width) (hy : y < s.height) :
    (s.xored cells).lit x y = (s.lit x y ^^ cells x y) := by
  have hlt := place_lt hx hy
  have hcell : (s.xored cells).cell (y * s.width + x) =
      (s.cell (y * s.width + x) ^^
        cells ((y * s.width + x) % s.width) ((y * s.width + x) / s.width)) := by
    simp [xored, cell, Array.getD_eq_getD_getElem?, hlt]
  rw [place_mod hx, place_div hx] at hcell
  exact hcell

theorem ext_lit (hw : t.width = s.width) (hh : t.height = s.height)
    (h : ∀ x y, x < s.width → y < s.height → t.lit x y = s.lit x y) : t = s := by
  have hcells : t.cells = s.cells := by
    apply Array.ext'
    rw [cells_toList, cells_toList, hw, hh]
    refine List.map_congr_left fun k hk => ?_
    have hx : k % s.width < s.width := Nat.mod_lt k s.width_pos
    have hy : k / s.width < s.height := Nat.div_lt_of_lt_mul (List.mem_range.1 hk)
    have hk' := h (k % s.width) (k / s.width) hx hy
    rwa [lit, lit, hw, Nat.div_add_mod'] at hk'
  cases s
  cases t
  simp_all

theorem Flips.eq_xored (h : Flips cells s t) : t = s.xored cells := by
  refine ext_lit h.width h.height fun x y hx hy => ?_
  have hnew : (s.xored cells).lit x y = (s.lit x y ^^ cells x y) := lit_xored hx hy
  rw [hnew]
  exact h.lit x y hx

end Screen

namespace Core

/-- What drawings look at besides the picture is in `t` as it was in `c`, as far as the registers of
their places are not the flag register. -/
structure SameGround (c t : Core) : Prop where
  index : t.state.i = c.state.i
  registers : ∀ r ≠ State.flagRegister, t.state.reg r = c.state.reg r
  memory : ∀ a, t.bus.peek a = c.bus.peek a

end Core

/-- The drawing, begun in `c`, has ended in `t`: its cells were flipped, and the flag tells whether one
of them was lit. -/
structure Drawing.Drew (g : Drawing) (c t : Core) : Prop where
  ground : c.SameGround t
  screen : t.state.screen = c.state.screen.xored (g.sprite c)
  flag : t.state.flag = 0 ∨ t.state.flag = 1
  hit : t.state.flag = 1 ↔ ∃ x y, g.sprite c x y = true ∧ c.state.screen.lit x y = true

namespace Core

variable {c t : Core} {d : Instruction} {g : Drawing}

/-- Drawn rows, and the flag and the counter after them. -/
theorem Drawn.drew {hit : Bool} (h : Drawn (rowsCover c.bus.byte c.state.i (g.left c.state)
      (g.top c.state) (g.visible c.state)) hit c t) (pc : Int) :
    g.Drew c ⟨{ t.state.setReg State.flagRegister (if hit then 1 else 0) with draw := true, pc := pc },
      t.bus⟩ := by
  have hflag : (t.state.setReg State.flagRegister (if hit then 1 else 0)).reg State.flagRegister =
      if hit then 1 else 0 := State.reg_setReg ..
  have hcells (x y : Nat) (hx : x < c.state.screen.width) : g.sprite c x y =
      rowsCover c.bus.byte c.state.i (g.left c.state) (g.top c.state) (g.visible c.state) x y := by
    rw [Drawing.sprite, decide_eq_true hx, Bool.true_and]
  constructor
  case ground =>
    constructor
    case index =>
      have hi : t.state.i = c.state.i := by rw [h.state]
      exact hi
    case registers =>
      intro r hr
      have hkept := State.reg_setReg_of_ne t.state hr.symm (if hit then 1 else 0)
      have hreg : t.state.reg r = c.state.reg r := by rw [h.state, State.reg, State.reg]
      exact hkept.trans hreg
    case memory => exact h.memory
  case screen => exact (h.flips.congr fun x y hx => (hcells x y hx).symm).eq_xored
  case flag =>
    rw [State.flag]
    cases hit with
    | true => exact .inr hflag
    | false => exact .inl hflag
  case hit =>
    have hone : (t.state.setReg State.flagRegister (if hit then 1 else 0)).reg State.flagRegister = 1 ↔
        hit = true := by
      rw [hflag]
      cases hit <;> simp
    have hlit : hit = true ↔ ∃ x y, g.sprite c x y = true ∧ c.state.screen.lit x y = true := by
      rw [h.hit]
      constructor
      · rintro ⟨x, y, hx, hcell, hlit⟩
        exact ⟨x, y, by rw [hcells x y hx, hcell], hlit⟩
      · rintro ⟨x, y, hcell, hlit⟩
        have hx := (Drawing.sprite_inside hcell).1
        exact ⟨x, y, hx, by rw [← hcells x y hx, hcell], hlit⟩
    exact hone.trans hlit

/-- An instruction that draws ends so exactly if the visible rows of its sprite can be read. -/
theorem execute_draws (hd : d.Draws g) (c : Core) :
    Ends (execute d) (fun _ t => g.Drew c t ∧ g.Readable c) (fun _ _ => ¬ g.Readable c) c := by
  have hdraw : execute d = (do drawSprite g.x g.y g.rows.val; advance false) := by
    rw [execute, hd.kind, ← hd.x, ← hd.y, ← hd.rows]
  rw [hdraw, ends_bind, drawSprite, ends_bind, ends_read, ends_bind]
  refine (drawRows_drawn (g.top_add_visible_le c.state)).imp (fun hit t h => ⟨h.1.drew _, h.2⟩) ?_
  rintro f t ⟨k, hk, -, hnone, -⟩ hreadable
  exact hnone (hreadable k hk)

end Core

end SpriteVM
