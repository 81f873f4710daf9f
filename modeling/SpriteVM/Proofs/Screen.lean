import Mathlib.Algebra.Ring.Parity
import Mathlib.Data.Finset.Prod
import Mathlib.Data.Nat.Count
import SpriteVM.Proofs.Outcome
import SpriteVM.Screen

namespace SpriteVM.Screen

/-- Whether the cell of a column and a row is lit. -/
def lit (s : Screen) (x y : Nat) : Bool := s.cell (y * s.width + x)

section Places

variable {s t : Screen} {x y : Nat}

theorem place_div {w x y : Nat} (hx : x < w) : (y * w + x) / w = y := by
  rw [Nat.mul_comm, Nat.mul_add_div (by omega), Nat.div_eq_of_lt hx, Nat.add_zero]

theorem place_mod {w x y : Nat} (hx : x < w) : (y * w + x) % w = x := by
  rw [Nat.mul_add_mod_self_right, Nat.mod_eq_of_lt hx]

theorem place_inj {w x x' y y' : Nat} (hx : x < w) (hx' : x' < w) :
    y * w + x = y' * w + x' ↔ y = y' ∧ x = x' := by
  constructor
  · intro h
    obtain rfl : y = y' := by rw [← place_div (y := y) hx, h, place_div hx']
    exact ⟨rfl, by omega⟩
  · rintro ⟨rfl, rfl⟩
    rfl

theorem place_lt (hx : x < s.width) (hy : y < s.height) : y * s.width + x < s.width * s.height := by
  have h : s.index? x y = some (y * s.width + x) := by simp [index?, hx, hy]
  exact index?_lt h

theorem lit_flip {x' y' : Nat} (hx : x < s.width) (hx' : x' < s.width) (hy' : y' < s.height) :
    (s.flip (y' * s.width + x')).lit x y = (s.lit x y ^^ decide (y = y' ∧ x = x')) := by
  rw [lit, width_flip, cell_flip s (place_lt hx' hy'), lit]
  have hplace : y' * s.width + x' = y * s.width + x ↔ y = y' ∧ x = x' := by
    rw [place_inj hx' hx, eq_comm (a := y'), eq_comm (a := x')]
  by_cases h : y = y' ∧ x = x'
  · rw [if_pos (hplace.2 h), decide_eq_true h, Bool.xor_true]
  · rw [if_neg (mt hplace.1 h), decide_eq_false h, Bool.xor_false]

@[simp] theorem lit_clear (s : Screen) (x y : Nat) : s.clear.lit x y = false := cell_clear s _

theorem cells_toList (s : Screen) :
    s.cells.toList = (List.range (s.width * s.height)).map s.cell := by
  apply List.ext_getElem
  · simp [s.size_cells]
  · intro k hk hk'
    have hsize : k < s.cells.size := by simpa using hk
    simp [cell, Array.getD_eq_getD_getElem?, hsize]

theorem getElem?_cells (hx : x < s.width) (hy : y < s.height) :
    s.cells.toList[y * s.width + x]? = some (s.lit x y) := by
  rw [cells_toList, List.getElem?_map, List.getElem?_range (place_lt hx hy)]
  rfl

/-- A coordinate pair is one of a cell of the picture. -/
def Inside (s : Screen) (x y : Int) : Prop := (0 ≤ x ∧ x < s.width) ∧ 0 ≤ y ∧ y < s.height

instance (s : Screen) (x y : Int) : Decidable (s.Inside x y) :=
  inferInstanceAs (Decidable (_ ∧ _))

theorem index?_eq (s : Screen) (x y : Int) :
    s.index? x y = if s.Inside x y then some (y.toNat * s.width + x.toNat) else none := by
  unfold index? Inside
  simp only [and_assoc]

theorem pixel_eq (s : Screen) (x y : Int) : s.pixel x y =
    if s.Inside x y then .ok (s.lit x.toNat y.toNat) else .error (.pixel x y s.width s.height) := by
  rw [pixel, index?_eq]
  by_cases h : s.Inside x y
  · rw [if_pos h, if_pos h]
    rfl
  · rw [if_neg h, if_neg h]
    rfl

theorem toggle_inside {x y : Int} (h : s.Inside x y) : toggle x y s =
    .ok (s.lit x.toNat y.toNat) (s.flip (y.toNat * s.width + x.toNat)) := by
  rw [toggle, index?_eq, if_pos h]
  rfl

theorem toggle_outside {x y : Int} (h : ¬ s.Inside x y) :
    toggle x y s = .error (.pixel x y s.width s.height) s := by
  rw [toggle, index?_eq, if_neg h]
  rfl

theorem rows_getElem? (hx : x < s.width) (hy : y < s.height) :
    s.rows[y]?.bind (·[x]?) = some (s.lit x y) := by
  simp [rows, lit, hx, hy]

theorem litCount_eq_countP (s : Screen) :
    s.litCount = (List.range (s.width * s.height)).countP s.cell := by
  rw [litCount, cells_toList, List.count_eq_countP, List.countP_map]
  simp only [Function.comp_def, beq_true]

/-- Each lit cell counts once. -/
theorem litCount_eq_card (s : Screen) : s.litCount =
    ((Finset.range s.width ×ˢ Finset.range s.height).filter fun p => s.lit p.1 p.2).card := by
  have hcells : s.litCount = ((Finset.range (s.width * s.height)).filter (s.cell ·)).card := by
    rw [litCount_eq_countP, ← Nat.count_eq_card_filter_range, Nat.count]
    simp only [Bool.decide_eq_true]
  rw [hcells]
  -- a place among the cells is a column and a row
  refine Finset.card_bij' (fun k _ => (k % s.width, k / s.width)) (fun p _ => p.2 * s.width + p.1)
    (fun k hk => ?_) (fun p hp => ?_) (fun k _ => Nat.div_add_mod' k s.width) fun p hp => ?_
  · obtain ⟨hlt, hlit⟩ := Finset.mem_filter.1 hk
    have hx : k % s.width < s.width := Nat.mod_lt k s.width_pos
    have hy : k / s.width < s.height := Nat.div_lt_of_lt_mul (Finset.mem_range.1 hlt)
    have hplace : s.lit (k % s.width) (k / s.width) = s.cell k := by rw [lit, Nat.div_add_mod']
    simp [hx, hy, hplace, hlit]
  · obtain ⟨⟨hx, hy⟩, hlit⟩ : (p.1 < s.width ∧ p.2 < s.height) ∧ s.lit p.1 p.2 := by simpa using hp
    have hcell : s.cell (p.2 * s.width + p.1) = true := hlit
    simp [place_lt hx hy, hcell]
  · have hx : p.1 < s.width := by
      have hin := (Finset.mem_filter.1 hp).1
      simpa using (Finset.mem_product.1 hin).1
    exact Prod.ext (place_mod hx) (place_div hx)

end Places

/-- What can be called on a picture. -/
inductive Call
  | resize (width height : Int)
  | clear
  | toggle (x y : Int)
  | pixel (x y : Int)
  deriving DecidableEq, Repr

namespace Call

/-- The answer tells whether a cell was lit, where that was asked. -/
def act : Call → EStateM Fault Screen (Option Bool)
  | resize width height => (fun _ => none) <$> Screen.resize width height
  | clear => (fun _ => none) <$> modify Screen.clear
  | toggle x y => some <$> Screen.toggle x y
  | pixel x y => fun s =>
    match s.pixel x y with
    | .ok on => .ok (some on) s
    | .error f => .error f s

/-- Why a call fails: a dimension outside 1 to 255, or a coordinate pair outside the picture. -/
def refusal? (s : Screen) : Call → Option Fault
  | resize width height =>
    if (1 ≤ width ∧ width ≤ 255) ∧ (1 ≤ height ∧ height ≤ 255) then none
    else some (.geometry width height)
  | clear => none
  | toggle x y | pixel x y => if s.Inside x y then none else some (.pixel x y s.width s.height)

/-- The family of the fault when a call fails. -/
def refusalKind : Call → FaultClass
  | resize _ _ | clear => .value
  | toggle _ _ | pixel _ _ => .index

/-- A call that returns leaves a dark picture. -/
def darkens : Call → Bool
  | resize _ _ | clear => true
  | toggle _ _ | pixel _ _ => false

/-- The size that a call asks for. -/
def size? : Call → Option (Int × Int)
  | resize width height => some (width, height)
  | clear | toggle _ _ | pixel _ _ => none

variable {s t : Screen} {a : Call} {f : Fault} {answer : Option Bool}

theorem act_eq_error : a.act s = .error f t ↔ a.refusal? s = some f ∧ t = s := by
  cases a with
  | resize width height =>
    rw [act, map_eq_error, Screen.resize, refusal?, ofSize]
    split_ifs <;> simp [eq_comm]
  | clear =>
    rw [act, map_eq_error]
    exact ⟨nofun, nofun⟩
  | toggle x y =>
    rw [act, map_eq_error, refusal?]
    by_cases h : s.Inside x y
    · simp [toggle_inside h, h]
    · simp [toggle_outside h, h, eq_comm]
  | pixel x y =>
    simp only [act, pixel_eq, refusal?]
    split_ifs <;> simp [eq_comm]

theorem kind_of_refusal (h : a.refusal? s = some f) : f.kind = a.refusalKind := by
  cases a with
  | resize width height =>
    rw [refusal?] at h
    split_ifs at h
    obtain rfl := Option.some.inj h
    rfl
  | clear => contradiction
  | toggle x y | pixel x y =>
    rw [refusal?] at h
    split_ifs at h
    obtain rfl := Option.some.inj h
    rfl

theorem act_resize {width height : Int} (h : (resize width height).act s = .ok answer t) :
    ((t.width : Int), (t.height : Int)) = (width, height) ∧ ∀ x y, t.lit x y = false := by
  rw [act, map_eq_ok] at h
  obtain ⟨_, hr, _⟩ := h
  unfold Screen.resize ofSize at hr
  split_ifs at hr with hrange
  obtain ⟨-, rfl⟩ := EStateM.Result.ok.inj hr
  constructor
  · have hw : ((width.toNat : Nat) : Int) = width := Int.toNat_of_nonneg (by omega)
    have hh : ((height.toNat : Nat) : Int) = height := Int.toNat_of_nonneg (by omega)
    exact Prod.ext hw hh
  · intro x y
    exact cell_dark ..

theorem act_clear (h : clear.act s = .ok answer t) : t = s.clear := by
  rw [act, map_eq_ok] at h
  obtain ⟨_, hr, _⟩ := h
  exact (EStateM.Result.ok.inj hr).2.symm

theorem act_toggle {x y : Int} (h : (toggle x y).act s = .ok answer t) :
    s.Inside x y ∧ t = s.flip (y.toNat * s.width + x.toNat) := by
  rw [act, map_eq_ok] at h
  obtain ⟨on, hr, -⟩ := h
  by_cases hin : s.Inside x y
  · rw [toggle_inside hin] at hr
    exact ⟨hin, (EStateM.Result.ok.inj hr).2.symm⟩
  · rw [toggle_outside hin] at hr
    contradiction

theorem act_pixel {x y : Int} (h : (pixel x y).act s = .ok answer t) : t = s := by
  simp only [act] at h
  split at h
  · exact (EStateM.Result.ok.inj h).2.symm
  · contradiction

/-- How often a cell was toggled since the picture was last made dark, by the calls that did not
fail, the latest first. -/
def toggles (done : List Call) (x y : Int) : Nat :=
  (done.takeWhile fun a => !a.darkens).count (.toggle x y)

def odd (done : List Call) (x y : Int) : Bool := decide (Odd (toggles done x y))

/-- The size that was asked for last, the first time when the picture was made. -/
def size (made : Int × Int) (done : List Call) : Int × Int := (done.findSome? size?).getD made

theorem odd_of_darkens (ha : a.darkens = true) (done : List Call) (x y : Int) :
    odd (a :: done) x y = false := by
  simp [odd, toggles, ha]

theorem odd_toggle (done : List Call) (x y x' y' : Int) :
    odd (toggle x' y' :: done) x y = (odd done x y ^^ decide (y = y' ∧ x = x')) := by
  have hcons : toggles (toggle x' y' :: done) x y =
      toggles done x y + if y = y' ∧ x = x' then 1 else 0 := by
    have heq : (toggle x' y' == toggle x y) = decide (y = y' ∧ x = x') := by
      rw [beq_eq_decide, decide_eq_decide, toggle.injEq]
      exact ⟨fun h => ⟨h.2.symm, h.1.symm⟩, fun h => ⟨h.2.symm, h.1.symm⟩⟩
    rw [toggles, List.takeWhile_cons_of_pos rfl, List.count_cons, heq, toggles]
    simp only [decide_eq_true_eq]
  rw [odd, hcons]
  split_ifs with h
  · simp only [Nat.odd_add_one, decide_not, h, odd, and_self, decide_true, Bool.xor_true]
  · simp [odd, h]

theorem odd_pixel (done : List Call) (x y x' y' : Int) :
    odd (pixel x' y' :: done) x y = odd done x y := by
  have hne : pixel x' y' ≠ toggle x y := nofun
  rw [odd, toggles, List.takeWhile_cons_of_pos rfl, List.count_cons_of_ne hne, odd, toggles]

theorem size_cons (made : Int × Int) (a : Call) (done : List Call) :
    size made (a :: done) = a.size?.getD (size made done) := by
  rw [size, List.findSome?_cons]
  cases a.size? <;> rfl

end Call

/-- The calls on a picture that did not fail, the latest first, and the picture they led to. -/
structure History where
  done : List Call
  screen : Screen

namespace History

/-- One call more. -/
def call (h : History) (a : Call) : History :=
  match a.act h.screen with
  | .ok _ s => ⟨a :: h.done, s⟩
  | .error _ s => ⟨h.done, s⟩

def after (made : Screen) (calls : List Call) : History := calls.foldl call ⟨[], made⟩

variable {h : History} {made : Int × Int}

/-- The picture is what the calls on it say. -/
structure Reflects (made : Int × Int) (h : History) : Prop where
  size : ((h.screen.width : Int), (h.screen.height : Int)) = Call.size made h.done
  lit : ∀ {x y : Nat}, x < h.screen.width → y < h.screen.height →
    h.screen.lit x y = Call.odd h.done x y

theorem Reflects.call (hr : h.Reflects made) (a : Call) : (h.call a).Reflects made := by
  obtain ⟨done, s⟩ := h
  unfold History.call
  dsimp only
  cases hact : a.act s with
  | error f t =>
    -- a call that fails leaves the picture as it is and is not among those done
    obtain ⟨-, rfl⟩ := Call.act_eq_error.1 hact
    exact hr
  | ok answer t =>
    have hsize := Call.size_cons made a done
    cases a with
    | resize width height =>
      obtain ⟨hasked, hdark⟩ := Call.act_resize hact
      refine ⟨hasked.trans hsize.symm, ?_⟩
      intro x y _ _
      rw [Call.odd_of_darkens rfl]
      exact hdark x y
    | clear =>
      obtain rfl := Call.act_clear hact
      refine ⟨hr.size.trans hsize.symm, ?_⟩
      intro x y _ _
      rw [Call.odd_of_darkens rfl]
      exact lit_clear s x y
    | toggle x' y' =>
      obtain ⟨⟨⟨_, hx'⟩, _, hy'⟩, rfl⟩ := Call.act_toggle hact
      refine ⟨hr.size.trans hsize.symm, ?_⟩
      intro x y hx hy
      have hsame : (y = y'.toNat ∧ x = x'.toNat) ↔ ((y : Int) = y' ∧ (x : Int) = x') := by omega
      calc (s.flip (y'.toNat * s.width + x'.toNat)).lit x y
          = (s.lit x y ^^ decide (y = y'.toNat ∧ x = x'.toNat)) :=
            lit_flip hx (by omega) (by omega)
        _ = (Call.odd done x y ^^ decide ((y : Int) = y' ∧ (x : Int) = x')) := by
            rw [hr.lit hx hy, decide_eq_decide.2 hsame]
        _ = Call.odd (.toggle x' y' :: done) x y := (Call.odd_toggle ..).symm
    | pixel x' y' =>
      obtain rfl := Call.act_pixel hact
      refine ⟨hr.size.trans hsize.symm, ?_⟩
      intro x y hx hy
      rw [Call.odd_pixel]
      exact hr.lit hx hy

theorem Reflects.foldl_call (hr : h.Reflects made) (calls : List Call) :
    (calls.foldl History.call h).Reflects made := by
  induction calls generalizing h with
  | nil => exact hr
  | cons a calls ih => exact ih (hr.call a)

theorem after_reflects {width height : Int} {s : Screen} (hs : ofSize width height = .ok s)
    (calls : List Call) : (after s calls).Reflects (width, height) := by
  have hmade : (Call.resize width height).act s = .ok none s := by
    rw [Call.act, map_eq_ok]
    exact ⟨(), by rw [Screen.resize, hs], rfl⟩
  obtain ⟨hsize, hdark⟩ := Call.act_resize hmade
  apply Reflects.foldl_call
  exact ⟨hsize, fun _ _ => hdark _ _⟩

end History

/-- Every way to look at a picture tells of the same cells that they are lit, and no other is lit. -/
structure Shows (s : Screen) (on : Int → Int → Bool) : Prop where
  pixel : ∀ {x y : Nat}, x < s.width → y < s.height → s.pixel x y = .ok (on x y)
  toggle : ∀ {x y : Nat}, x < s.width → y < s.height → ∃ t, Screen.toggle x y s = .ok (on x y) t
  rows : s.rows.length = s.height ∧ ∀ row ∈ s.rows, row.length = s.width
  row : ∀ {x y : Nat}, x < s.width → y < s.height → s.rows[y]?.bind (·[x]?) = some (on x y)
  bytes : s.bytes.length = s.width * s.height
  byte : ∀ {x y : Nat}, x < s.width → y < s.height →
    s.bytes[y * s.width + x]? = some (if on x y then 1 else 0)
  litCount : s.litCount =
    ((Finset.range s.width ×ˢ Finset.range s.height).filter fun p => on p.1 p.2).card

theorem inside_of_lt {s : Screen} {x y : Nat} (hx : x < s.width) (hy : y < s.height) :
    s.Inside x y := by
  unfold Inside
  omega

theorem shows_of_lit {s : Screen} {on : Int → Int → Bool}
    (h : ∀ {x y : Nat}, x < s.width → y < s.height → s.lit x y = on x y) : s.Shows on where
  pixel := by
    intro x y hx hy
    rw [pixel_eq, if_pos (inside_of_lt hx hy), ← h hx hy, Int.toNat_natCast, Int.toNat_natCast]
  toggle := by
    intro x y hx hy
    rw [toggle_inside (inside_of_lt hx hy), ← h hx hy, Int.toNat_natCast, Int.toNat_natCast]
    exact ⟨_, rfl⟩
  rows := by
    constructor
    · simp [rows]
    · intro row hrow
      obtain ⟨y, -, rfl⟩ := List.mem_map.1 hrow
      simp
  row := by
    intro x y hx hy
    rw [rows_getElem? hx hy, h hx hy]
  bytes := by simp [bytes, s.size_cells]
  byte := by
    intro x y hx hy
    rw [bytes, List.getElem?_map, getElem?_cells hx hy, h hx hy]
    rfl
  litCount := by
    rw [litCount_eq_card]
    congr 1
    apply Finset.filter_congr
    intro p hp
    obtain ⟨hx, hy⟩ := Finset.mem_product.1 hp
    rw [h (Finset.mem_range.1 hx) (Finset.mem_range.1 hy)]

/-- After any calls a cell is lit exactly if it was toggled an odd number of times since the picture
was last made dark; a call that fails changes nothing. -/
theorem shows_toggle_parity {width height : Int} {made : Screen} (hmade : ofSize width height = .ok made)
    (calls : List Call) :
    let h := History.after made calls
    ((h.screen.width : Int), (h.screen.height : Int)) = Call.size (width, height) h.done ∧
      h.screen.Shows (Call.odd h.done) ∧
      (∀ (a : Call) f t, a.act h.screen = .error f t ↔ a.refusal? h.screen = some f ∧ t = h.screen) ∧
      ∀ a f, Call.refusal? h.screen a = some f → f.kind = a.refusalKind := by
  intro h
  have hr : h.Reflects (width, height) := History.after_reflects hmade calls
  refine ⟨hr.size, shows_of_lit hr.lit, ?_, ?_⟩
  · intro a f t
    exact Call.act_eq_error
  · intro a f hf
    exact Call.kind_of_refusal hf

/-- Calls with a size and two coordinate pairs that are refused, and a cell toggled twice. -/
def fewCalls : List Call :=
  [.toggle 2 1, .toggle 0 0, .resize 0 256, .toggle 3 0, .pixel 0 (-1), .toggle 2 1, .toggle 1 1]

theorem shows_toggle_parity_few :
    let h := History.after (dark 3 2 (by decide) (by decide)) fewCalls
    h.done = [.toggle 1 1, .toggle 2 1, .toggle 0 0, .toggle 2 1] ∧
      h.screen.bytes = [1, 0, 0, 0, 1, 0] ∧ h.screen.Shows (Call.odd h.done) := by
  intro h
  have hmade : ofSize 3 2 = .ok (dark 3 2 (by decide) (by decide)) := rfl
  have hshows := (shows_toggle_parity hmade fewCalls).2.1
  exact ⟨by decide +kernel, by decide +kernel, hshows⟩

end SpriteVM.Screen
