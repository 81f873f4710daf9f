import Mathlib.Algebra.Ring.Parity
import Mathlib.Data.List.Dedup
import SpriteVM.Proofs.Machine.Drawn

namespace SpriteVM

namespace Screen

variable {s : Screen} {cells cells' : Nat → Nat → Bool}

theorem lit_xored_xored {x y : Nat} (hx : x < s.width) (hy : y < s.height) :
    ((s.xored cells).xored cells').lit x y = (s.lit x y ^^ cells x y ^^ cells' x y) := by
  rw [lit_xored (s := s.xored cells) hx hy, lit_xored hx hy]

theorem xored_comm (s : Screen) (cells cells' : Nat → Nat → Bool) :
    (s.xored cells).xored cells' = (s.xored cells').xored cells := by
  refine ext_lit rfl rfl fun x y (hx : x < s.width) (hy : y < s.height) => ?_
  rw [lit_xored_xored hx hy, lit_xored_xored hx hy, Bool.xor_right_comm]

theorem xored_self (s : Screen) (cells : Nat → Nat → Bool) : (s.xored cells).xored cells = s := by
  refine ext_lit rfl rfl fun x y hx hy => ?_
  rw [lit_xored_xored hx hy, Bool.xor_assoc, Bool.xor_self, Bool.xor_false]

end Screen

namespace Drawing

/-- The drawings that occur an odd number of times, each once. -/
def oddly (ds : List Drawing) : List Drawing := ds.dedup.filter fun g => Odd (ds.count g)

variable {ds : List Drawing} {g : Drawing} {β : Type} {act : β → Drawing → β}

theorem mem_oddly : g ∈ oddly ds ↔ Odd (ds.count g) := by
  rw [oddly, List.mem_filter, List.mem_dedup, decide_eq_true_iff]
  refine ⟨And.right, fun h => ⟨List.count_pos_iff.1 ?_, h⟩⟩
  obtain ⟨k, hk⟩ := h
  omega

theorem oddly_nodup (ds : List Drawing) : (oddly ds).Nodup := (List.nodup_dedup ds).filter _

/-- One more occurrence takes a drawing out, or brings it in. -/
theorem oddly_cons (g : Drawing) (ds : List Drawing) :
    (oddly (g :: ds)).Perm (g :: oddly ds) ∨ (oddly ds).Perm (g :: oddly (g :: ds)) := by
  have hflip (g' : Drawing) : g' ∈ oddly (g :: ds) ↔ (g' ∈ oddly ds ↔ g' ≠ g) := by
    rw [mem_oddly, mem_oddly, List.count_cons]
    by_cases he : g' = g
    · simp [he, Nat.odd_add_one]
    · simp [he, Ne.symm he]
  by_cases hmem : g ∈ oddly ds
  · right
    have hnodup : (g :: oddly (g :: ds)).Nodup :=
      List.nodup_cons.2 ⟨by simp [hflip, hmem], oddly_nodup (g :: ds)⟩
    refine (List.perm_ext_iff_of_nodup (oddly_nodup ds) hnodup).2 fun g' => ?_
    rw [List.mem_cons, hflip]
    by_cases he : g' = g <;> simp [he, hmem]
  · left
    have hnodup : (g :: oddly ds).Nodup := List.nodup_cons.2 ⟨hmem, oddly_nodup ds⟩
    refine (List.perm_ext_iff_of_nodup (oddly_nodup (g :: ds)) hnodup).2 fun g' => ?_
    rw [List.mem_cons, hflip]
    by_cases he : g' = g <;> simp [he, hmem]

section Fold

variable (hcomm : ∀ b g g', act (act b g) g' = act (act b g') g)

include hcomm

theorem foldl_perm {ds' : List Drawing} (h : ds.Perm ds') (b : β) :
    ds.foldl act b = ds'.foldl act b :=
  h.foldl_eq' (fun _ _ _ _ b => hcomm b _ _) b

/-- What undoes itself and does not depend on the order is done once for each odd number of times. -/
theorem foldl_oddly (hself : ∀ b g, act (act b g) g = b) (ds : List Drawing) (b : β) :
    ds.foldl act b = (oddly ds).foldl act b := by
  induction ds generalizing b with
  | nil => rfl
  | cons g ds ih =>
    rw [List.foldl_cons, ih]
    obtain hin | hout := oddly_cons g ds
    · rw [foldl_perm hcomm hin, List.foldl_cons]
    · rw [foldl_perm hcomm hout, List.foldl_cons, hself]

end Fold

/-- Neither the column nor the row of the place comes from the flag register. -/
def Plain (g : Drawing) : Prop := g.x ≠ State.flagRegister ∧ g.y ≠ State.flagRegister

instance (g : Drawing) : Decidable g.Plain := inferInstanceAs (Decidable (_ ∧ _))

/-- The picture with the drawing flipped as it is when begun in `c`. -/
def flip (c : Core) (s : Screen) (g : Drawing) : Screen := s.xored (g.sprite c)

end Drawing

namespace Core

variable {c c' t u : Core} {g : Drawing} {ds ds' : List Drawing}

/-- Between two drawings: what they look at is as before, and so is the picture. -/
structure Idle (c t : Core) : Prop extends SameGround c t where
  screen : t.state.screen = c.state.screen

/-- The same ground, and a picture of the same size. -/
structure Alike (c t : Core) : Prop extends SameGround c t where
  width : t.state.screen.width = c.state.screen.width
  height : t.state.screen.height = c.state.screen.height

theorem SameGround.refl (c : Core) : SameGround c c := ⟨rfl, fun _ _ => rfl, fun _ => rfl⟩

theorem Idle.refl (c : Core) : Idle c c := ⟨.refl c, rfl⟩

theorem Alike.refl (c : Core) : Alike c c := ⟨.refl c, rfl, rfl⟩

theorem SameGround.trans (h : SameGround c t) (h' : SameGround t u) : SameGround c u where
  index := h'.index.trans h.index
  registers := fun r hr => (h'.registers r hr).trans (h.registers r hr)
  memory := fun a => (h'.memory a).trans (h.memory a)

theorem Alike.idle (h : Alike c t) (h' : Idle t u) : Alike c u :=
  ⟨h.toSameGround.trans h'.toSameGround, by rw [h'.screen, h.width], by rw [h'.screen, h.height]⟩

theorem Alike.drew (h : Alike c t) (h' : g.Drew t u) : Alike c u := by
  have hwidth : u.state.screen.width = t.state.screen.width := by
    rw [h'.screen]
    rfl
  have hheight : u.state.screen.height = t.state.screen.height := by
    rw [h'.screen]
    rfl
  exact ⟨h.toSameGround.trans h'.ground, hwidth.trans h.width, hheight.trans h.height⟩

namespace Alike

variable (h : Alike c t) (hg : g.Plain)

include h hg

theorem left_eq : g.left t.state = g.left c.state := by
  rw [Drawing.left, Drawing.left, h.registers g.x hg.1, h.width]

theorem top_eq : g.top t.state = g.top c.state := by
  rw [Drawing.top, Drawing.top, h.registers g.y hg.2, h.height]

theorem visible_eq : g.visible t.state = g.visible c.state := by
  rw [Drawing.visible, Drawing.visible, h.top_eq hg, h.height]

theorem sprite_eq : g.sprite t = g.sprite c := by
  have hbyte : t.bus.byte = c.bus.byte := by
    funext a
    rw [Bus.byte, Bus.byte, h.memory]
  funext x y
  rw [Drawing.sprite, Drawing.sprite, h.width, hbyte, h.index, h.left_eq hg, h.top_eq hg,
    h.visible_eq hg]

theorem readable_iff : g.Readable t ↔ g.Readable c := by
  rw [Drawing.Readable, Drawing.Readable, h.visible_eq hg, h.index, Bus.RowsReadable,
    Bus.RowsReadable]
  simp only [h.memory]

end Alike

/-- Instructions that make these drawings are executed one after another, and end. -/
inductive DrawRun : List Drawing → Core → Core → Prop
  | nil {c t : Core} (h : Idle c t) : DrawRun [] c t
  | cons {c c' t u : Core} {d : Instruction} {g : Drawing} {ds : List Drawing} (h : Idle c c')
    (hd : d.Draws g) (he : execute d c' = .ok () t) (hr : DrawRun ds t u) : DrawRun (g :: ds) c u

/-- The drawing that an instruction asks for, if it draws. -/
def drawing (d : Instruction) : Drawing := ⟨d.x, d.y, d.nibble⟩

/-- Nothing has to come between the instructions. -/
theorem drawRun_of_forM {is : List Instruction} (h : is.forM execute c = .ok () t)
    (hk : ∀ d ∈ is, d.kind = .draw) : DrawRun (is.map drawing) c t := by
  induction is generalizing c with
  | nil =>
    obtain ⟨-, rfl⟩ := EStateM.Result.ok.inj h
    exact .nil (.refl c)
  | cons d is ih =>
    obtain ⟨hd, hk⟩ := List.forall_mem_cons.1 hk
    change (do execute d; is.forM execute : Exec Unit) c = .ok () t at h
    obtain ⟨_, t', he, hrest⟩ := bind_eq_ok.1 h
    exact .cons (.refl c) ⟨hd, rfl, rfl, rfl⟩ he (ih hrest hk)

/-- The drawings are flipped as they would be if each of them was the first. -/
theorem DrawRun.screen_eq {c₀ : Core} (h : DrawRun ds c t) (h₀ : Alike c₀ c)
    (hplain : ∀ g ∈ ds, g.Plain) :
    t.state.screen = ds.foldl (Drawing.flip c₀) c.state.screen := by
  induction h with
  | nil h => exact h.screen
  | @cons c c' t u d g ds h hd he hr ih =>
    obtain ⟨hg, hplain⟩ := List.forall_mem_cons.1 hplain
    have hdrew : g.Drew c' t := ((execute_draws hd c').ok he).1
    have hc' : Alike c₀ c' := h₀.idle h
    rw [ih (hc'.drew hdrew) hplain, List.foldl_cons, hdrew.screen, hc'.sprite_eq hg, h.screen]
    rfl

/-- In a run that ends every drawing could be the first. -/
theorem DrawRun.readable {c₀ : Core} (h : DrawRun ds c t) (h₀ : Alike c₀ c)
    (hplain : ∀ g ∈ ds, g.Plain) :
    ∀ g ∈ ds, (∃ d : Instruction, d.Draws g) ∧ g.Readable c₀ := by
  induction h with
  | nil h => exact nofun
  | @cons c c' t u d g ds h hd he hr ih =>
    obtain ⟨hg, hplain⟩ := List.forall_mem_cons.1 hplain
    obtain ⟨hdrew, hreadable⟩ := (execute_draws hd c').ok he
    have hc' : Alike c₀ c' := h₀.idle h
    refine List.forall_mem_cons.2 ⟨⟨⟨d, hd⟩, (hc'.readable_iff hg).1 hreadable⟩, ?_⟩
    exact ih (hc'.drew hdrew) hplain

/-- Drawings that could each be the first can be made one after another. -/
theorem exists_drawRun {c₀ : Core} (h₀ : Alike c₀ c)
    (hall : ∀ g ∈ ds, g.Plain ∧ (∃ d : Instruction, d.Draws g) ∧ g.Readable c₀) :
    ∃ t, DrawRun ds c t := by
  induction ds generalizing c with
  | nil => exact ⟨c, .nil (Idle.refl c)⟩
  | cons g ds ih =>
    obtain ⟨⟨hg, ⟨d, hd⟩, hreadable⟩, hall⟩ := List.forall_mem_cons.1 hall
    have hdraws := execute_draws hd c
    cases he : execute d c with
    | error f t => exact absurd ((h₀.readable_iff hg).2 hreadable) (hdraws.error he)
    | ok _ t =>
      have ht : Alike c₀ t := h₀.drew (hdraws.ok he).1
      obtain ⟨u, hu⟩ := ih ht hall
      exact ⟨u, .cons (Idle.refl c) hd he hu⟩

/-- A drawing made twice is gone, and the second one hits the cells that were dark. -/
theorem drew_twice (hg : g.Plain) (h : g.Drew c t) (hidle : Idle t c') (h' : g.Drew c' u) :
    u.state.screen = c.state.screen ∧
      (u.state.flag = 1 ↔ ∃ x y, g.sprite c x y = true ∧ c.state.screen.lit x y = false) := by
  have hc' : Alike c c' := ((Alike.refl c).drew h).idle hidle
  have hscreen : c'.state.screen = c.state.screen.xored (g.sprite c) := hidle.screen.trans h.screen
  constructor
  · rw [h'.screen, hc'.sprite_eq hg, hscreen, Screen.xored_self]
  · rw [h'.hit, hc'.sprite_eq hg, hscreen]
    refine exists_congr fun x => exists_congr fun y => and_congr_right fun hcell => ?_
    obtain ⟨hx, hy⟩ := Drawing.sprite_inside hcell
    rw [Screen.lit_xored hx hy, hcell, Bool.xor_true, Bool.not_eq_true']

/-- Drawings in any order flip what was drawn an odd number of times; a drawing made twice restores
the picture. -/
theorem draws_flip_odd (c : Core) :
    (∀ ds t, (∀ g ∈ ds, g.Plain) → DrawRun ds c t →
      t.state.screen = (Drawing.oddly ds).foldl (Drawing.flip c) c.state.screen ∧
      ∀ ds', ds'.Perm ds → (∃ u, DrawRun ds' c u) ∧
        ∀ u, DrawRun ds' c u → u.state.screen = t.state.screen) ∧
    ∀ (g : Drawing) (d d' : Instruction) t c' u, g.Plain → d.Draws g → d'.Draws g →
      execute d c = .ok () t → Idle t c' → execute d' c' = .ok () u →
      u.state.screen = c.state.screen ∧
      (t.state.flag = 1 ↔ ∃ x y, g.sprite c x y = true ∧ c.state.screen.lit x y = true) ∧
      (u.state.flag = 1 ↔ ∃ x y, g.sprite c x y = true ∧ c.state.screen.lit x y = false) ∧
      ∀ s ∈ [t.state, u.state], s.flag = 0 ∨ s.flag = 1 := by
  have hcomm (s : Screen) (g g' : Drawing) :
      Drawing.flip c (Drawing.flip c s g) g' = Drawing.flip c (Drawing.flip c s g') g :=
    Screen.xored_comm s (g.sprite c) (g'.sprite c)
  have hself (s : Screen) (g : Drawing) : Drawing.flip c (Drawing.flip c s g) g = s :=
    Screen.xored_self s (g.sprite c)
  constructor
  · intro ds t hplain hrun
    have hscreen := hrun.screen_eq (Alike.refl c) hplain
    refine ⟨hscreen.trans (Drawing.foldl_oddly hcomm hself ds _), fun ds' hperm => ?_⟩
    have hplain' : ∀ g ∈ ds', g.Plain := fun g hg => hplain g (hperm.mem_iff.1 hg)
    have hreadable := hrun.readable (Alike.refl c) hplain
    constructor
    · exact exists_drawRun (Alike.refl c) fun g hg =>
        ⟨hplain' g hg, hreadable g (hperm.mem_iff.1 hg)⟩
    · intro u hu
      rw [hu.screen_eq (Alike.refl c) hplain', hscreen, Drawing.foldl_perm hcomm hperm]
  · intro g d d' t c' u hg hd hd' he hidle he'
    have hdrew := ((execute_draws hd c).ok he).1
    have hdrew' := ((execute_draws hd' c').ok he').1
    obtain ⟨hrestored, hdark⟩ := drew_twice hg hdrew hidle hdrew'
    refine ⟨hrestored, hdrew.hit, hdark, List.forall_mem_cons.2 ⟨hdrew.flag, ?_⟩⟩
    exact List.forall_mem_singleton.2 hdrew'.flag

/-- A small picture, and two rows of a sprite at the index. -/
def smallPicture : Core where
  state :=
    { State.initial 7 with
      screen := Screen.dark 4 3 (by decide) (by decide)
      v := (State.initial 7).v.set 1 2 }
  bus := ⟨#[.ram ⟨#[0xE0, 0xA0], false⟩], [⟨0, 1, 0⟩], []⟩

/-- Three columns on the lowest row, which is all that the picture has room for. -/
def bar : Instruction := Instruction.decode 0xD012 0x200

/-- Two columns on the same row, the third one being outside. -/
def shortBar : Instruction := Instruction.decode 0xD112 0x202

theorem draws_flip_odd_bars : (∃ t, DrawRun ([bar, shortBar, bar].map drawing) smallPicture t ∧
      t.state.screen = smallPicture.state.screen.xored ((drawing shortBar).sprite smallPicture)) ∧
    ∃ t u, execute bar smallPicture = .ok () t ∧ execute bar t = .ok () u ∧
      u.state.screen = smallPicture.state.screen ∧ t.state.flag ≠ 1 ∧ u.state.flag = 1 := by
  have hkinds : ∀ d ∈ [bar, shortBar, bar], d.kind = .draw := by decide
  have hends : ((match [bar, shortBar, bar].forM execute smallPicture with
      | .ok _ _ => true
      | .error _ _ => false) &&
      match execute bar smallPicture with
      | .error _ _ => false
      | .ok _ t => match execute bar t with
        | .error _ _ => false
        | .ok _ _ => true) = true := by decide +kernel
  obtain ⟨hmany, htwo⟩ := Bool.and_eq_true_iff.1 hends
  constructor
  · cases hr : [bar, shortBar, bar].forM execute smallPicture with
    | error f t => simp [hr] at hmany
    | ok _ t =>
      have hrun := drawRun_of_forM hr hkinds
      have hscreen := ((draws_flip_odd smallPicture).1 _ t (by decide) hrun).1
      have hodd : Drawing.oddly ([bar, shortBar, bar].map drawing) = [drawing shortBar] := by decide
      rw [hodd] at hscreen
      exact ⟨t, hrun, hscreen⟩
  · have hbar : bar.Draws (drawing bar) := ⟨by decide, rfl, rfl, rfl⟩
    cases ht : execute bar smallPicture with
    | error f t => simp [ht] at htwo
    | ok _ t =>
      cases hu : execute bar t with
      | error f u => simp [ht, hu] at htwo
      | ok _ u =>
        obtain ⟨hscreen, hlit, hdark, -⟩ := (draws_flip_odd smallPicture).2 (drawing bar) bar bar t t
          u (by decide) hbar hbar ht (.refl t) hu
        have hempty (x y : Nat) : smallPicture.state.screen.lit x y = false :=
          Screen.cell_dark 4 3 (by decide) (by decide) _
        refine ⟨t, u, rfl, hu, hscreen, ?_, hdark.2 ⟨0, 2, by decide +kernel, hempty 0 2⟩⟩
        intro hflag
        obtain ⟨x, y, -, hlit⟩ := hlit.1 hflag
        simp [hempty] at hlit

end Core

end SpriteVM
