import SpriteVM.Machine.Drawing
import SpriteVM.Proofs.Outcome

namespace SpriteVM

namespace Screen

variable {s : Screen} {left top : Nat} {row : Int}

def strikeAll (left top : Nat) (bits : List Nat) (acc : Bool × Screen) : Bool × Screen :=
  bits.foldl (fun acc bit => strike acc (top * acc.2.width + (left + bit))) acc

theorem strikeAll_cons (bit : Nat) (bits : List Nat) (hit : Bool) :
    strikeAll left top (bit :: bits) (hit, s) =
      strikeAll left top bits (hit || s.cell (top * s.width + (left + bit)),
        s.flip (top * s.width + (left + bit))) := rfl

/-- What was hit before does not change what is struck. -/
theorem strikeAll_hit (bits : List Nat) (hit : Bool) :
    strikeAll left top bits (hit, s) =
      (hit || (strikeAll left top bits (false, s)).1, (strikeAll left top bits (false, s)).2) := by
  induction bits generalizing s hit with
  | nil => simp [strikeAll]
  | cons bit bits ih =>
    rw [strikeAll_cons, strikeAll_cons, ih, ih (false || _)]
    simp [Bool.or_assoc]

theorem strikeAll_size (bits : List Nat) (hit : Bool) :
    (strikeAll left top bits (hit, s)).2.width = s.width ∧
      (strikeAll left top bits (hit, s)).2.height = s.height := by
  induction bits generalizing s hit with
  | nil => exact ⟨rfl, rfl⟩
  | cons bit bits ih =>
    rw [strikeAll_cons]
    exact ih _

theorem drawRow_size (left top : Nat) (row : Int) (s : Screen) :
    (s.drawRow left top row).2.width = s.width ∧ (s.drawRow left top row).2.height = s.height :=
  strikeAll_size (struckBits s.width left row) false

theorem ends_toggle_inside {Q : Bool → Screen → Prop} {E : Fault → Screen → Prop} {x y : Nat}
    (hx : x < s.width) (hy : y < s.height) :
    Ends (toggle x y) Q E s ↔ Q (s.cell (y * s.width + x)) (s.flip (y * s.width + x)) := by
  simp [Ends, toggle, index?, hx, hy]

def toggleBit (on : Bool) (x y : Int) : EStateM Fault Screen Bool :=
  if on then toggle x y else pure false

/-- Draws these columns of a row of a sprite, up to the right edge of the picture. -/
def toggleBits (left top : Nat) (row : Int) : List Nat → EStateM Fault Screen Bool
  | [] => pure false
  | bit :: rest => do
    let s ← get
    if s.width ≤ left + bit then return false
    let hit ← toggleBit (spriteBit row bit) (left + bit : Nat) top
    let further ← toggleBits left top row rest
    return hit || further

theorem struck_beyond {k n : Nat} (h : s.width ≤ left + k) :
    (List.range' k n).filter (fun bit => left + bit < s.width && spriteBit row bit) = [] := by
  rw [List.filter_eq_nil_iff]
  intro bit hb
  have := (List.mem_range'_1.1 hb).1
  simp
  omega

/-- The cells struck in a row are those of the columns inside, and every one is in the picture. -/
theorem ends_toggleBits (left : Nat) (row : Int) (hy : top < s.height) (k n : Nat) :
    Ends (toggleBits left top row (List.range' k n))
      (fun hit t => (hit, t) = strikeAll left top
        ((List.range' k n).filter fun bit => left + bit < s.width && spriteBit row bit) (false, s))
      (fun _ _ => False) s := by
  induction n generalizing s k with
  | zero => rfl
  | succ n ih =>
    rw [List.range'_succ, toggleBits, ends_bind, ends_get]
    -- a column beyond the edge ends the row, and the filter drops that column and all after it
    by_cases he : s.width ≤ left + k
    · rw [if_pos he, ← List.range'_succ, struck_beyond he]
      rfl
    · rw [if_neg he, ends_bind, toggleBit]
      have hx : left + k < s.width := by omega
      cases hb : spriteBit row k with
      | false =>
        rw [if_neg Bool.false_ne_true, ends_pure, ends_bind, List.filter_cons_of_neg (by simp [hb])]
        exact (ih hy (k + 1)).imp (fun hit t h => h) fun _ _ h => h
      | true =>
        rw [if_pos rfl, ends_toggle_inside hx hy, ends_bind,
          List.filter_cons_of_pos (by simp [hb, hx]), strikeAll_cons, strikeAll_hit]
        refine (ih (s := s.flip (top * s.width + (left + k))) hy (k + 1)).imp (fun hit t h => ?_)
          fun _ _ h => h
        rw [width_flip] at h
        rw [ends_pure, Bool.false_or, ← h]

end Screen

namespace Core

def onScreen {α : Type} (act : EStateM Fault Screen α) : Exec α := fun c =>
  match act c.state.screen with
  | .ok a screen => .ok a ⟨{ c.state with screen := screen }, c.bus⟩
  | .error f screen => .error f ⟨{ c.state with screen := screen }, c.bus⟩

/-- Draws rows of a sprite from an address on, up to the lower edge of the picture. -/
def toggleRows (left : Nat) : Nat → Int → Nat → Exec Bool
  | _, _, 0 => pure false
  | top, address, n + 1 => do
    let height ← read (·.screen.height)
    if height ≤ top then return false
    let row ← onBus (Bus.read address)
    let hit ← onScreen (Screen.toggleBits left top row (List.range 8))
    let further ← toggleRows left (top + 1) (address + 1) n
    return hit || further

/-- Draws a sprite with every row and every cell held against the edges of the picture. -/
def toggleSprite (x y : Fin 16) (n : Nat) : Exec Unit := do
  let s ← read id
  let left := (s.reg x % s.screen.width).toNat
  let top := (s.reg y % s.screen.height).toNat
  let hit ← toggleRows left top s.i n
  update fun s => { s.setReg State.flagRegister (if hit then 1 else 0) with draw := true }

variable {c : Core} {left top : Nat}

theorem onBus_state {α : Type} (act : EStateM Fault Bus α) (c : Core) :
    Ends (onBus act) (fun _ t => t.state = c.state) (fun _ t => t.state = c.state) c := by
  rw [ends_onBus]
  exact Ends.of_forall (fun _ _ _ => rfl) fun _ _ _ => rfl

theorem onScreen_toggleBits (row : Int) (hy : top < c.state.screen.height) :
    onScreen (Screen.toggleBits left top row (List.range 8)) c = drawRow left top row c := by
  have h := Screen.ends_toggleBits left row hy 0 8
  rw [← List.range_eq_range'] at h
  rw [drawRow_apply]
  unfold onScreen
  cases hr : Screen.toggleBits left top row (List.range 8) c.state.screen with
  | error f t => exact absurd (h.error hr) id
  | ok hit t =>
    have ht : (hit, t) = c.state.screen.drawRow left top row := h.ok hr
    rw [← ht]

theorem toggleRows_eq (address : Int) (n : Nat) :
    toggleRows left top address n c =
      drawRows left top address (min n (c.state.screen.height - top)) c := by
  induction n generalizing top address c with
  | zero => rw [Nat.zero_min]; rfl
  | succ n ih =>
    rw [toggleRows, bind_apply, read_apply]
    dsimp only
    by_cases he : c.state.screen.height ≤ top
    · rw [if_pos he, show min (n + 1) (c.state.screen.height - top) = 0 by omega]
      rfl
    · have hm : min (n + 1) (c.state.screen.height - top) =
          min n (c.state.screen.height - (top + 1)) + 1 := by omega
      rw [if_neg he, hm, drawRows, bind_apply, bind_apply]
      cases hr : onBus (Bus.read address) c with
      | error f t => rfl
      | ok row t =>
        have ht : t.state = c.state := (onBus_state (Bus.read address) c).ok hr
        have hy : top < t.state.screen.height := by
          rw [ht]
          omega
        have hsize := (Screen.drawRow_size left top row t.state.screen).2
        dsimp only
        rw [bind_apply, bind_apply, onScreen_toggleBits row hy, drawRow_apply]
        dsimp only
        rw [bind_apply, bind_apply, ih, ← ht, ← hsize]

/-- A sprite is drawn as if every cell was held against the edges, and none is ever outside. -/
theorem drawSprite_eq_toggleSprite (x y : Fin 16) (n : Nat) :
    drawSprite x y n = toggleSprite x y n := by
  funext c
  rw [drawSprite, toggleSprite, bind_apply, bind_apply, read_apply]
  dsimp only [id]
  rw [bind_apply, bind_apply, toggleRows_eq]

end Core

end SpriteVM
