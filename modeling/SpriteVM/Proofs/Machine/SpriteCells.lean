import SpriteVM.Proofs.Bus.Replay
import SpriteVM.Proofs.Machine.Execute
import SpriteVM.Proofs.Machine.Sprite
import SpriteVM.Proofs.Screen

namespace SpriteVM

namespace Screen

/-- Whether a row of a sprite that begins at the column `left` lights the column `x`. -/
def covers (left : Nat) (row : Int) (x : Nat) : Bool :=
  decide (left ≤ x ∧ x < left + 8) && spriteBit row (x - left)

variable {s : Screen} {left top x y : Nat} {row : Int}

/-- No column is struck twice, so each of them is flipped. -/
theorem strikeAll_lit (hx : x < s.width) (hy : top < s.height) {bits : List Nat} (hn : bits.Nodup)
    (hb : ∀ bit ∈ bits, left + bit < s.width) (hit : Bool) :
    (strikeAll left top bits (hit, s)).2.lit x y =
      (s.lit x y ^^ decide (y = top ∧ ∃ bit ∈ bits, x = left + bit)) := by
  induction bits generalizing s hit with
  | nil => simp [strikeAll]
  | cons bit bits ih =>
    obtain ⟨hnew, hn⟩ := List.nodup_cons.1 hn
    obtain ⟨hin, hb⟩ := List.forall_mem_cons.1 hb
    rw [strikeAll_cons, ih (s := s.flip _) hx hy hn hb, lit_flip hx hin hy, Bool.xor_assoc]
    congr 1
    by_cases he : x = left + bit
    · subst he
      simp [hnew]
    · simp [he]

theorem mem_struckBits {width bit : Nat} : bit ∈ struckBits width left row ↔
    bit < 8 ∧ left + bit < width ∧ spriteBit row bit = true := by
  simp [struckBits]

theorem struckBits_nodup (width left : Nat) (row : Int) : (struckBits width left row).Nodup :=
  List.nodup_range.filter _

/-- The columns that a row strikes are those of the picture that it lights. -/
theorem exists_struckBit_iff {width : Nat} (hx : x < width) :
    (∃ bit ∈ struckBits width left row, x = left + bit) ↔ covers left row x = true := by
  rw [covers, Bool.and_eq_true, decide_eq_true_iff]
  constructor
  · rintro ⟨bit, hm, rfl⟩
    obtain ⟨hlt, -, hbit⟩ := mem_struckBits.1 hm
    rw [Nat.add_sub_cancel_left]
    exact ⟨⟨by omega, by omega⟩, hbit⟩
  · rintro ⟨⟨hlo, hhi⟩, hbit⟩
    exact ⟨x - left, mem_struckBits.2 ⟨by omega, by omega, hbit⟩, by omega⟩

theorem drawRow_eq_strikeAll (left top : Nat) (row : Int) (s : Screen) :
    s.drawRow left top row = strikeAll left top (struckBits s.width left row) (false, s) := rfl

theorem drawRow_lit (hx : x < s.width) (hy : top < s.height) :
    (s.drawRow left top row).2.lit x y = (s.lit x y ^^ (decide (y = top) && covers left row x)) := by
  rw [drawRow_eq_strikeAll, strikeAll_lit hx hy (struckBits_nodup s.width left row)
    fun bit hm => (mem_struckBits.1 hm).2.1, Bool.decide_and]
  congr 2
  rw [Bool.eq_iff_iff, decide_eq_true_iff]
  exact exists_struckBit_iff hx

/-- No column is struck twice, so what is hit was lit before. -/
theorem strikeAll_hit_iff (hy : top < s.height) {bits : List Nat} (hn : bits.Nodup)
    (hb : ∀ bit ∈ bits, left + bit < s.width) :
    (strikeAll left top bits (false, s)).1 = true ↔ ∃ bit ∈ bits, s.lit (left + bit) top = true := by
  induction bits generalizing s with
  | nil => simp [strikeAll]
  | cons bit bits ih =>
    obtain ⟨hnew, hn⟩ := List.nodup_cons.1 hn
    obtain ⟨hin, hb⟩ := List.forall_mem_cons.1 hb
    have hsame : ∀ bit' ∈ bits, (s.flip (top * s.width + (left + bit))).lit (left + bit') top =
        s.lit (left + bit') top := by
      intro bit' hm
      have hne : bit' ≠ bit := fun he => hnew (he ▸ hm)
      rw [lit_flip (hb bit' hm) hin hy]
      simp [hne]
    have hrest := ih (s := s.flip (top * s.width + (left + bit))) hy hn hb
    rw [strikeAll_cons, strikeAll_hit, Bool.false_or, Bool.or_eq_true, hrest, List.exists_mem_cons_iff]
    refine or_congr Iff.rfl (exists_congr fun bit' => and_congr_right fun hm => ?_)
    rw [hsame bit' hm]

theorem drawRow_hit_iff (hy : top < s.height) : (s.drawRow left top row).1 = true ↔
    ∃ x < s.width, covers left row x = true ∧ s.lit x top = true := by
  rw [drawRow_eq_strikeAll, strikeAll_hit_iff hy (struckBits_nodup s.width left row)
    fun bit hm => (mem_struckBits.1 hm).2.1]
  constructor
  · rintro ⟨bit, hm, hlit⟩
    have hin : left + bit < s.width := (mem_struckBits.1 hm).2.1
    exact ⟨left + bit, hin, (exists_struckBit_iff hin).1 ⟨bit, hm, rfl⟩, hlit⟩
  · rintro ⟨x, hin, hcovers, hlit⟩
    obtain ⟨bit, hm, rfl⟩ := (exists_struckBit_iff hin).2 hcovers
    exact ⟨bit, hm, hlit⟩

end Screen

/-- The rows of a sprite that stands in memory from an address on cover a cell. -/
def rowsCover (memory : Int → Int) (address : Int) (left top n x y : Nat) : Bool :=
  decide (top ≤ y ∧ y < top + n) && Screen.covers left (memory (address + (y - top : Nat))) x

section Rows

variable {memory : Int → Int} {address : Int} {left top n x y : Nat}

theorem rowsCover_zero : rowsCover memory address left top 0 x y = false := by
  have hrange : ¬ (top ≤ y ∧ y < top + 0) := by omega
  rw [rowsCover, decide_eq_false hrange, Bool.false_and]

/-- The top row, and the rows below it. -/
theorem rowsCover_succ : rowsCover memory address left top (n + 1) x y =
    ((decide (y = top) && Screen.covers left (memory address) x) ^^
      rowsCover memory (address + 1) left (top + 1) n x y) := by
  by_cases hy : y = top
  · subst hy
    have hle : ¬ y + 1 ≤ y := by omega
    simp [rowsCover, hle]
  · by_cases hlt : y < top
    · have hle : ¬ top ≤ y ∧ ¬ top + 1 ≤ y := by omega
      simp [rowsCover, hy, hle]
    · have haddress : address + 1 + (y - (top + 1) : Nat) = address + (y - top : Nat) := by omega
      have hrange : top + 1 ≤ y ∧ y < top + 1 + n ↔ top ≤ y ∧ y < top + (n + 1) := by omega
      rw [rowsCover, rowsCover, haddress, decide_eq_decide.2 hrange, decide_eq_false hy,
        Bool.false_and, Bool.false_xor]

/-- The rows below the top row do not cover a cell of it. -/
theorem rowsCover_above (h : y < top) : rowsCover memory address left top n x y = false := by
  have hrange : ¬ (top ≤ y ∧ y < top + n) := by omega
  rw [rowsCover, decide_eq_false hrange, Bool.false_and]

end Rows

/-- Whether a sprite of `n` rows lights a cell. The rows stand in memory from an address on; those
beyond the last address are left away. -/
def spriteCell (memory : Int → Int) (address : Int) (left top n x y : Nat) : Bool :=
  decide (top ≤ y ∧ y < top + n ∧ address + (y - top : Nat) ≤ 0xFFF) &&
    Screen.covers left (memory (address + (y - top : Nat))) x

/-- Where memory ends after `k` rows, the rest is left away. -/
theorem spriteCell_eq_rowsCover {memory : Int → Int} {address : Int} {left top n k : Nat} (hk : k ≤ n)
    (hends : ∀ j < n, address + j ≤ 0xFFF ↔ j < k) :
    spriteCell memory address left top n = rowsCover memory address left top k := by
  funext x y
  have hrange : top ≤ y ∧ y < top + n ∧ address + (y - top : Nat) ≤ 0xFFF ↔
      top ≤ y ∧ y < top + k := by
    have hend := hends (y - top)
    omega
  rw [spriteCell, rowsCover, decide_eq_decide.2 hrange]

namespace Screen

/-- From `s` to `t` these cells were flipped. -/
structure Flips (cells : Nat → Nat → Bool) (s t : Screen) : Prop where
  width : t.width = s.width
  height : t.height = s.height
  lit : ∀ x y, x < s.width → t.lit x y = (s.lit x y ^^ cells x y)

variable {cells cells' : Nat → Nat → Bool} {s t u : Screen}

theorem Flips.none (h : ∀ x y, cells x y = false) (s : Screen) : Flips cells s s :=
  ⟨rfl, rfl, fun x y _ => by rw [h, Bool.xor_false]⟩

theorem Flips.trans (h : Flips cells s t) (h' : Flips cells' t u) :
    Flips (fun x y => cells x y ^^ cells' x y) s u where
  width := h'.width.trans h.width
  height := h'.height.trans h.height
  lit := fun x y hx => by rw [h'.lit x y (h.width ▸ hx), h.lit x y hx, Bool.xor_assoc]

/-- A row of a sprite flips the cells that it lights. -/
theorem drawRow_flips {left top : Nat} (row : Int) (hy : top < s.height) :
    s.Flips (fun x y => decide (y = top) && covers left row x) (s.drawRow left top row).2 where
  width := (drawRow_size left top row s).1
  height := (drawRow_size left top row s).2
  lit := fun _ _ hx => drawRow_lit hx hy

theorem Flips.congr (h : Flips cells s t) (hcells : ∀ x y, x < s.width → cells x y = cells' x y) :
    Flips cells' s t :=
  ⟨h.width, h.height, fun x y hx => by rw [h.lit x y hx, hcells x y hx]⟩

end Screen

namespace Bus

/-- As many bytes as there are rows can be read from an address on. -/
def RowsReadable (b : Bus) (address : Int) (rows : Nat) : Prop :=
  ∀ k < rows, ∃ row, b.peek (address + k) = .ok row

/-- Whether a byte can be read at an address shows in a look at it. -/
theorem ends_read_peek (address : Int) (b : Bus) :
    Ends (read address)
      (fun d t => b.peek address = .ok d ∧ t = b.record ⟨.read, address, d⟩)
      (fun _ t => (¬ ∃ d, b.peek address = .ok d) ∧ t = b) b := by
  unfold Ends read
  cases b.peek address <;> simp

theorem peek_ok_iff {b : Bus} {address : Int} (hb : b.layout.OneMemory) :
    (∃ d, b.peek address = .ok d) ↔ Inside address := by
  by_cases ha : Inside address
  · simp [peek_inside hb ha, ha]
  · simp [peek_outside hb ha, ha]

theorem rowsReadable_succ {b : Bus} {address : Int} {n : Nat} : b.RowsReadable address (n + 1) ↔
    (∃ row, b.peek address = .ok row) ∧ b.RowsReadable (address + 1) n := by
  have hfirst : address + (0 : Nat) = address := by omega
  have hnext (k : Nat) : address + (k + 1 : Nat) = address + 1 + k := by omega
  rw [RowsReadable, RowsReadable, Nat.forall_lt_succ_left]
  simp only [hfirst, hnext]

end Bus

namespace Core

variable {cells cells' : Nat → Nat → Bool} {hit hit' : Bool} {c t u : Core} {address : Int}
  {left top : Nat}

/-- From `c` to `t` these cells were flipped, nothing else changed that a drawing looks at, and `hit`
tells whether one of them was lit. -/
structure Drawn (cells : Nat → Nat → Bool) (hit : Bool) (c t : Core) : Prop where
  state : t.state = { c.state with screen := t.state.screen }
  memory : ∀ a, t.bus.peek a = c.bus.peek a
  flips : c.state.screen.Flips cells t.state.screen
  hit : hit = true ↔
    ∃ x y, x < c.state.screen.width ∧ cells x y = true ∧ c.state.screen.lit x y = true

namespace Drawn

theorem none (h : ∀ x y, cells x y = false) (c : Core) : Drawn cells false c c where
  state := rfl
  memory := fun _ => rfl
  flips := .none h c.state.screen
  hit := by simp [h]

/-- Where the two draw different cells, what the second one hits was lit before the first. -/
theorem trans (h : Drawn cells hit c t) (h' : Drawn cells' hit' t u)
    (hapart : ∀ x y, cells x y = true → cells' x y = false) :
    Drawn (fun x y => cells x y ^^ cells' x y) (hit || hit') c u where
  state := by rw [h'.state, h.state]
  memory := fun a => (h'.memory a).trans (h.memory a)
  flips := h.flips.trans h'.flips
  hit := by
    have hcell (x y : Nat) (hx : x < c.state.screen.width) :
        ((cells x y ^^ cells' x y) = true ∧ c.state.screen.lit x y = true) ↔
          (cells x y = true ∧ c.state.screen.lit x y = true) ∨
            (cells' x y = true ∧ t.state.screen.lit x y = true) := by
      have hnot := hapart x y
      rw [h.flips.lit x y hx]
      cases hc : cells x y <;> cases hc' : cells' x y <;> simp_all
    rw [Bool.or_eq_true, h.hit, h'.hit, h.flips.width]
    constructor
    · rintro (⟨x, y, hx, hlit⟩ | ⟨x, y, hx, hlit⟩)
      · exact ⟨x, y, hx, (hcell x y hx).2 (.inl hlit)⟩
      · exact ⟨x, y, hx, (hcell x y hx).2 (.inr hlit)⟩
    · rintro ⟨x, y, hx, hlit⟩
      exact ((hcell x y hx).1 hlit).imp (fun h => ⟨x, y, hx, h⟩) fun h => ⟨x, y, hx, h⟩

end Drawn

theorem drawRow_drawn (left : Nat) (row : Int) (hy : top < c.state.screen.height) {b : Bus}
    (hb : ∀ a, b.peek a = c.bus.peek a) :
    Drawn (fun x y => decide (y = top) && Screen.covers left row x)
      (c.state.screen.drawRow left top row).1 c
      ⟨{ c.state with screen := (c.state.screen.drawRow left top row).2 }, b⟩ where
  state := rfl
  memory := hb
  flips := Screen.drawRow_flips row hy
  hit := by
    rw [Screen.drawRow_hit_iff hy]
    constructor
    · rintro ⟨x, hx, hcovers, hlit⟩
      exact ⟨x, top, hx, by simp [hcovers], hlit⟩
    · rintro ⟨x, y, hx, hcells, hlit⟩
      obtain ⟨rfl, hcovers⟩ : y = top ∧ Screen.covers left row x = true := by simpa using hcells
      exact ⟨x, hx, hcovers, hlit⟩

/-- Rows that lie in the picture are drawn up to the first that cannot be read, and there the drawing
fails. -/
theorem drawRows_drawn {n : Nat} (hn : top + n ≤ c.state.screen.height) :
    Ends (drawRows left top address n)
      (fun hit t => Drawn (rowsCover c.bus.byte address left top n) hit c t ∧
        c.bus.RowsReadable address n)
      (fun _ t => ∃ k < n, c.bus.RowsReadable address k ∧
        (¬ ∃ row, c.bus.peek (address + k) = .ok row) ∧
        c.state.screen.Flips (rowsCover c.bus.byte address left top k) t.state.screen) c := by
  induction n generalizing top address c with
  | zero => exact ⟨.none (fun x y => rowsCover_zero) c, nofun⟩
  | succ n ih =>
    rw [drawRows, ends_bind, ends_onBus]
    refine (Bus.ends_read_peek address c.bus).imp (fun row b hread => ?_) fun f b hread => ?_
    · obtain ⟨hfirst, rfl⟩ := hread
      have hbyte : c.bus.byte address = row := Bus.byte_of_peek hfirst
      have htop : top < c.state.screen.height := by omega
      have hrow := drawRow_drawn left row htop (b := c.bus.record ⟨.read, address, row⟩) fun _ => rfl
      have hrest : top + 1 + n ≤ (c.state.screen.drawRow left top row).2.height := by
        rw [(Screen.drawRow_size left top row c.state.screen).2]
        omega
      have hcells (k : Nat) : rowsCover c.bus.byte address left top (k + 1) = fun x y =>
          (decide (y = top) && Screen.covers left row x) ^^
            rowsCover c.bus.byte (address + 1) left (top + 1) k x y := by
        funext x y
        rw [rowsCover_succ, hbyte]
      rw [ends_bind, Ends, drawRow_apply]
      dsimp only
      rw [ends_bind]
      refine (ih (c := ⟨_, c.bus.record _⟩) hrest).imp (fun hit t h => ?_) fun f t h => ?_
      · obtain ⟨hdrawn, hreadable⟩ := h
        refine ⟨hcells n ▸ hrow.trans hdrawn fun x y hy => ?_,
          Bus.rowsReadable_succ.2 ⟨⟨row, hfirst⟩, hreadable⟩⟩
        obtain ⟨rfl, -⟩ : y = top ∧ Screen.covers left row x = true := by simpa using hy
        exact rowsCover_above (Nat.lt_succ_self y)
      · obtain ⟨k, hk, hreadable, hnone, hflips⟩ := h
        have hnext : address + (k + 1 : Nat) = address + 1 + k := by omega
        refine ⟨k + 1, by omega, Bus.rowsReadable_succ.2 ⟨⟨row, hfirst⟩, hreadable⟩, ?_, ?_⟩
        · rw [hnext]
          exact hnone
        · rw [hcells]
          exact hrow.flips.trans hflips
    · obtain ⟨hnone, rfl⟩ := hread
      refine ⟨0, by omega, nofun, ?_, Screen.Flips.none (fun x y => rowsCover_zero) c.state.screen⟩
      have hfirst : address + (0 : Nat) = address := by omega
      rw [hfirst]
      exact hnone

/-- However the drawing of rows ends, the cells are flipped that they light, as far as memory has
these rows. -/
theorem drawRows_flips (hb : c.bus.layout.OneMemory) (ha : 0 ≤ address) {n : Nat}
    (hn : top + n ≤ c.state.screen.height) :
    let Q (t : Core) := c.state.screen.Flips (spriteCell c.bus.byte address left top n) t.state.screen
    Ends (drawRows left top address n) (fun _ t => Q t) (fun _ t => Q t) c := by
  have hinside (k : Nat) : (∃ row, c.bus.peek (address + k) = .ok row) ↔ address + k ≤ 0xFFF := by
    rw [Bus.peek_ok_iff hb, Bus.Inside]
    omega
  refine (drawRows_drawn hn).imp (fun hit t h => ?_) fun f t h => ?_
  · obtain ⟨hdrawn, hreadable⟩ := h
    have hends (j : Nat) (hj : j < n) : address + j ≤ 0xFFF ↔ j < n :=
      ⟨fun _ => hj, fun _ => (hinside j).1 (hreadable j hj)⟩
    rw [spriteCell_eq_rowsCover (Nat.le_refl n) hends]
    exact hdrawn.flips
  · obtain ⟨k, hk, hreadable, hnone, hflips⟩ := h
    have hends (j : Nat) (hj : j < n) : address + j ≤ 0xFFF ↔ j < k := by
      have hlast := mt (hinside k).2 hnone
      refine ⟨fun hle => by omega, fun hlt => (hinside j).1 (hreadable j hlt)⟩
    rw [spriteCell_eq_rowsCover (Nat.le_of_lt hk) hends]
    exact hflips

end Core

end SpriteVM
