import SpriteVM.Proofs.Bus.OneMemory
import Mathlib.Tactic.ByContra

namespace SpriteVM

namespace Program

variable {image : List UInt8} {f : Fault} {h : Header} {o : Option Header}

/-- A header that is accepted names a picture that there can be. -/
theorem header_bounds (hh : header image = .ok (some h)) :
    (1 ≤ h.width ∧ h.width ≤ 255) ∧ (1 ≤ h.height ∧ h.height ≤ 255) := by
  unfold header at hh
  split at hh
  · cases hh
  · next last _ =>
    have hw := (last.getD 6 0).toNat_lt
    have hhigh := (last.getD 7 0).toNat_lt
    dsimp only at hh
    split at hh
    · cases hh
    · obtain rfl := Option.some.inj (Except.ok.inj hh)
      dsimp only
      omega

theorem header_eq_error (hh : header image = .error f) : ∃ w h, f = .emptyDisplay w h := by
  unfold header at hh
  split at hh
  · cases hh
  · dsimp only at hh
    split at hh
    · exact ⟨_, _, (Except.error.inj hh).symm⟩
    · cases hh

/-- The picture an image asks for. -/
def size (o : Option Header) : Nat × Nat :=
  match o with
  | some h => (h.width, h.height)
  | none => (64, 32)

theorem size_bounds (hh : header image = .ok o) :
    (1 ≤ (size o).1 ∧ (size o).1 ≤ 255) ∧ (1 ≤ (size o).2 ∧ (size o).2 ≤ 255) := by
  cases o with
  | none => decide
  | some h => exact header_bounds hh

end Program

namespace Machine

/-- The machine with a dark picture of another size. -/
def resized (m : Machine) (screen : Screen) : Machine :=
  { m with
    core := ⟨{ (m.state.setReg State.widthRegister screen.width).setReg State.heightRegister
      screen.height with screen := screen, draw := true }, m.bus⟩ }

/-- Two registers read the size of the picture, and the others are as they were. -/
theorem reg_resized (m : Machine) (screen : Screen) :
    (m.resized screen).state.reg 13 = screen.width ∧
      (m.resized screen).state.reg 14 = screen.height ∧
      ∀ y, y ≠ 13 → y ≠ 14 → (m.resized screen).state.reg y = m.state.reg y := by
  let wide := m.state.setReg State.widthRegister screen.width
  refine ⟨?_, State.reg_setReg wide State.heightRegister screen.height, fun y hwidth hheight => ?_⟩
  · have hkept := wide.reg_setReg_of_ne (show State.heightRegister ≠ 13 by decide) screen.height
    exact hkept.trans (State.reg_setReg m.state State.widthRegister screen.width)
  · have hkept := wide.reg_setReg_of_ne (show State.heightRegister ≠ y from Ne.symm hheight)
      screen.height
    exact hkept.trans (State.reg_setReg_of_ne m.state (Ne.symm hwidth) screen.width)

theorem resizeScreen_ok {w h : Nat} (hw : 1 ≤ w ∧ w ≤ 255) (hh : 1 ≤ h ∧ h ≤ 255) (m : Machine) :
    resizeScreen w h m = .ok () (m.resized (.dark w h hw hh)) := by
  have hsize : Screen.ofSize w h = .ok (.dark w h hw hh) := by
    unfold Screen.ofSize
    rw [dif_pos (by omega)]
    rfl
  unfold resizeScreen
  rw [hsize]
  rfl

end Machine

namespace Program

variable {image : List UInt8} {f : Fault} {o : Option Header} {m : Machine}

/-- Why an image is not loaded. -/
inductive Refused (image : List UInt8) : Fault → Prop
  | oversized (hl : maxSize < image.length) : Refused image (.programSize image.length)
  | emptyPicture (hl : image.length ≤ maxSize) {w h : Nat}
    (hh : header image = .error (.emptyDisplay w h)) : Refused image (.emptyDisplay w h)

theorem Refused.kind (h : Refused image f) : f.kind = .programFormat := by
  cases h <;> rfl

theorem load_of_refused (h : Refused image f) (m : Machine) : load image m = .error f m := by
  cases h with
  | oversized hl =>
    unfold load
    rw [if_pos hl]
    rfl
  | emptyPicture hl hh =>
    unfold load
    rw [if_neg (Nat.not_lt.2 hl), hh]
    rfl

/-- An image that is not refused is put into memory, and the picture is set up. -/
theorem load_of_accepted (hb : m.bus.layout.OneMemory) (hn : ∀ f, ¬ Refused image f) :
    ∃ (o : Option Header) (b : Bus) (screen : Screen), header image = .ok o ∧
      Bus.load State.entryPoint image m.bus = .ok () b ∧
      (screen.width, screen.height) = size o ∧ (∀ k, screen.cell k = false) ∧
      load image m = .ok o ({ m with core := ⟨m.state, b⟩ }.resized screen) := by
  have hl : image.length ≤ maxSize := by
    by_contra hlt
    exact hn _ (.oversized (Nat.lt_of_not_le hlt))
  cases hh : header image with
  | error f =>
    obtain ⟨w, h, rfl⟩ := header_eq_error hh
    exact absurd (.emptyPicture hl hh) (hn _)
  | ok o =>
    have hend : State.entryPoint + image.length ≤ 0x1000 := by
      unfold State.entryPoint
      unfold maxSize at hl
      omega
    obtain ⟨b, hload⟩ := Bus.load_inside hb (by decide) image hend
    have hbus : Machine.onBus (Bus.load State.entryPoint image) m =
        .ok () { m with core := ⟨m.state, b⟩ } := by
      unfold Machine.onBus Machine.onCore Core.onBus
      dsimp only
      have hcore : m.core.bus = m.bus := rfl
      rw [hcore, hload]
      rfl
    obtain ⟨hw, hhigh⟩ := size_bounds hh
    have hsize := Machine.resizeScreen_ok hw hhigh { m with core := ⟨m.state, b⟩ }
    refine ⟨o, b, .dark _ _ hw hhigh, rfl, hload, rfl, Screen.cell_dark _ _ hw hhigh, ?_⟩
    unfold load
    rw [if_neg (Nat.not_lt.2 hl), hh]
    change ((Machine.onBus (Bus.load State.entryPoint image)) >>= _) m = _
    rw [bind_of_ok hbus]
    cases o with
    | none => exact bind_of_ok hsize
    | some h => exact bind_of_ok hsize

/-- On one memory an image is loaded exactly if nothing about it is refused. -/
theorem load_fails_iff (hb : m.bus.layout.OneMemory) :
    (∃ t, load image m = .error f t) ↔ Refused image f := by
  constructor
  · rintro ⟨t, hload⟩
    by_contra hn
    by_cases hany : ∃ g, Refused image g
    · obtain ⟨g, hg⟩ := hany
      rw [load_of_refused hg] at hload
      obtain ⟨rfl, -⟩ := EStateM.Result.error.inj hload
      exact hn hg
    · obtain ⟨o, b, screen, -, -, -, -, hok⟩ := load_of_accepted hb (not_exists.1 hany)
      rw [hok] at hload
      cases hload
  · intro h
    exact ⟨m, load_of_refused h m⟩

end Program

end SpriteVM
