import SpriteVM.Proofs.Bus.Written
import SpriteVM.Proofs.Machine.Loading
import SpriteVM.Proofs.Machine.Session

namespace SpriteVM

namespace Program

variable {image : List UInt8} {m : Machine}

/-- There are more than sixteen bytes, and the last sixteen begin with the mark. -/
def Headed (image : List UInt8) : Prop :=
  16 < image.length ∧ image[image.length - 16]? = some 0xC8 ∧ image[image.length - 15]? = some 0xC8

theorem take_two_eq {l : List UInt8} {a b : UInt8} :
    l.take 2 = [a, b] ↔ l[0]? = some a ∧ l[1]? = some b := by
  match l with
  | [] | [_] => simp
  | _ :: _ :: _ => simp

theorem headed_iff : headerSize < image.length ∧
    (image.drop (image.length - headerSize)).take 2 = headerMark ↔ Headed image := by
  rw [headerSize, headerMark, take_two_eq, List.getElem?_drop, List.getElem?_drop, Headed]
  refine and_congr_right fun hlt => ?_
  have hsecond : image.length - 16 + 1 = image.length - 15 := by omega
  rw [Nat.add_zero, hsecond]

theorem header_unheaded (h : ¬ Headed image) : header image = .ok none := by
  have htrailer : trailer? image = none := if_neg (mt headed_iff.1 h)
  rw [header, htrailer]

/-- The width stands six bytes behind the begin of the mark, and the height next to it. -/
theorem header_headed (h : Headed image) : ∃ w h, image[image.length - 10]? = some w ∧
    image[image.length - 9]? = some h ∧ header image =
      if w = 0 ∨ h = 0 then .error (.emptyDisplay w.toNat h.toNat)
      else .ok (some ⟨w.toNat, h.toNat⟩) := by
  have hlt := h.1
  have htrailer : trailer? image = some (image.drop (image.length - 16)) := if_pos (headed_iff.2 h)
  have hbyte (k : Nat) (hk : k < 16) :
      image[image.length - 16 + k]? = some ((image.drop (image.length - 16)).getD k 0) := by
    have hin : image.length - 16 + k < image.length := by omega
    rw [List.getD_eq_getElem?_getD, List.getElem?_drop, List.getElem?_eq_getElem hin]
    rfl
  have hwidth := hbyte 6 (by decide)
  have hheight := hbyte 7 (by decide)
  rw [show image.length - 16 + 6 = image.length - 10 by omega] at hwidth
  rw [show image.length - 16 + 7 = image.length - 9 by omega] at hheight
  refine ⟨_, _, hwidth, hheight, ?_⟩
  rw [header, htrailer]
  simp only [← UInt8.toNat_inj, UInt8.toNat_zero]

/-- The image is too large, or its header names an empty picture. -/
def Malformed (image : List UInt8) : Prop :=
  0xE00 < image.length ∨ (Headed image ∧
    (image[image.length - 10]? = some 0 ∨ image[image.length - 9]? = some 0))

theorem refused_iff : (∃ f, Refused image f) ↔ Malformed image := by
  constructor
  · rintro ⟨f, hl | ⟨-, hh⟩⟩
    · exact .inl hl
    · by_cases hheaded : Headed image
      · obtain ⟨w, h, hw, hhigh, heq⟩ := header_headed hheaded
        by_cases hempty : w = 0 ∨ h = 0
        · exact .inr ⟨hheaded, by simpa [hw, hhigh] using hempty⟩
        · rw [heq, if_neg hempty] at hh
          contradiction
      · rw [header_unheaded hheaded] at hh
        contradiction
  · intro hm
    by_cases hl : maxSize < image.length
    · exact ⟨_, .oversized hl⟩
    · obtain ⟨hheaded, hempty⟩ := hm.resolve_left hl
      obtain ⟨w, h, hw, hhigh, heq⟩ := header_headed hheaded
      have hzero : w = 0 ∨ h = 0 := by simpa [hw, hhigh] using hempty
      rw [if_pos hzero] at heq
      exact ⟨_, .emptyPicture (by omega) heq⟩

/-- The answer of a load and the size of the picture are those of the header, if there is one. -/
theorem header_tells {o : Option Header} (hh : header image = .ok o) :
    (¬ Headed image → o = none ∧ size o = (64, 32)) ∧
      (Headed image → ∃ w h, image[image.length - 10]? = some w ∧
        image[image.length - 9]? = some h ∧ o = some ⟨w.toNat, h.toNat⟩ ∧
        size o = (w.toNat, h.toNat)) := by
  constructor
  · intro hn
    rw [header_unheaded hn] at hh
    obtain rfl := Except.ok.inj hh
    exact ⟨rfl, rfl⟩
  · intro hheaded
    obtain ⟨w, h, hw, hhigh, heq⟩ := header_headed hheaded
    rw [heq] at hh
    split at hh
    · contradiction
    · obtain rfl := Except.ok.inj hh
      exact ⟨w, h, hw, hhigh, rfl, rfl⟩

/-- In `t` the image is loaded into the machine `m`, and `o` is the header it was told to have. -/
structure Loaded (m : Machine) (image : List UInt8) (o : Option Header) (t : Machine) : Prop where
  memory : ∀ (k : Nat) d, image[k]? = some d → t.bus.byte (0x200 + k) = d.toNat
  outside : ∀ a, a < 0x200 ∨ 0x200 + image.length ≤ a → t.bus.byte a = m.bus.byte a
  log : t.bus.log = m.bus.log
  layout : t.bus.layout = m.bus.layout
  dark : ∀ k, t.state.screen.cell k = false
  unheaded : ¬ Headed image →
    o = none ∧ t.state.screen.width = 64 ∧ t.state.screen.height = 32
  headed : Headed image → ∃ w h, image[image.length - 10]? = some w ∧
    image[image.length - 9]? = some h ∧ o = some ⟨w.toNat, h.toNat⟩ ∧
    t.state.screen.width = w.toNat ∧ t.state.screen.height = h.toNat
  width : t.state.reg 13 = t.state.screen.width
  height : t.state.reg 14 = t.state.screen.height
  registers : ∀ y, y ≠ 13 → y ≠ 14 → t.state.reg y = m.state.reg y
  rest : ∃ b screen v,
    t = { m with core := ⟨{ m.state with v := v, screen := screen, draw := true }, b⟩ }

theorem load_loaded (hb : m.bus.layout.OneMemory) (hm : ¬ Malformed image) :
    ∃ o t, load image m = .ok o t ∧ Loaded m image o t := by
  have hlength : image.length ≤ 0xE00 := by
    by_contra hl
    exact hm (.inl (by omega))
  obtain ⟨o, b, screen, hh, hload, hsize, hdark, hok⟩ :=
    load_of_accepted hb (not_exists.1 (mt refused_iff.1 hm))
  obtain ⟨hwritten, hlog⟩ := (Bus.load_written hb (by decide) image).ok hload
  obtain ⟨hwidth, hheight, hothers⟩ := Machine.reg_resized { m with core := ⟨m.state, b⟩ } screen
  obtain ⟨hnone, hsome⟩ := header_tells hh
  rw [← hsize] at hnone hsome
  simp only [Prod.mk.injEq] at hnone hsome
  refine ⟨o, _, hok, ?_⟩
  constructor
  case memory =>
    intro k d hk
    have hin : k < image.length := (List.getElem?_eq_some_iff.1 hk).1
    exact hwritten.inside k _ (by simp [hk]) (by unfold State.entryPoint; omega)
  case outside =>
    intro a ha
    have hout := hwritten.outside a
    simp only [List.length_map, State.entryPoint] at hout
    exact hout (by omega)
  case log => exact hlog
  case layout => exact (Bus.ends_load State.entryPoint image m.bus).ok hload
  case dark => exact hdark
  case unheaded => exact hnone
  case headed => exact hsome
  case width => exact hwidth
  case height => exact hheight
  case registers => exact hothers
  case rest => exact ⟨b, screen, _, rfl⟩

/-- On one memory an image is refused exactly if it is malformed, which changes nothing, and else it is
loaded with nothing else changed. -/
theorem load_image {m : Machine} (hb : m.bus.layout.OneMemory) (image : List UInt8) :
    ((∃ f t, load image m = .error f t ∧ f.kind = .programFormat) ↔ Malformed image) ∧
      (∀ f t, load image m = .error f t → f.kind = .programFormat ∧ t = m) ∧
      (¬ Malformed image → ∃ o t, load image m = .ok o t ∧ Loaded m image o t) := by
  refine ⟨?_, fun f t hload => ?_, load_loaded hb⟩
  · rw [← refused_iff]
    constructor
    · rintro ⟨f, t, hload, -⟩
      exact ⟨f, (load_fails_iff hb).1 ⟨t, hload⟩⟩
    · rintro ⟨f, hf⟩
      exact ⟨f, m, load_of_refused hf m, hf.kind⟩
  · have hf : Refused image f := (load_fails_iff hb).1 ⟨t, hload⟩
    rw [load_of_refused hf] at hload
    exact ⟨hf.kind, (EStateM.Result.error.inj hload).2.symm⟩

/-- A jump to itself, and a header that asks for a picture of 8 by 4 cells. -/
def headedJump : List UInt8 := [0x12, 0x00, 0xC8, 0xC8, 0, 0, 0, 0, 8, 4, 0, 0, 0, 0, 0, 0, 0, 0]

theorem load_image_headedJump : ∃ m₀, Machine.create Bus.blank 7 = .ok m₀ ∧
    m₀.bus.layout.OneMemory ∧ ∃ t, load headedJump m₀ = .ok (some ⟨8, 4⟩) t ∧
      t.bus.byte 0x200 = 0x12 ∧ t.bus.byte 0x50 = m₀.bus.byte 0x50 ∧
      t.state.screen.width = 8 ∧ t.state.screen.height = 4 ∧
      t.state.reg 13 = 8 ∧ t.state.reg 14 = 4 ∧ t.state.reg 12 = m₀.state.reg 12 ∧
      t.state.draw = true ∧ t.state.pc = m₀.state.pc := by
  obtain ⟨m₀, h₀⟩ := Machine.create_ok Bus.blank_oneMemory 7
  have hone : m₀.bus.layout.OneMemory := (Machine.create_sound h₀).layout ▸ Bus.blank_oneMemory
  have hheaded : Headed headedJump := by
    unfold Headed
    decide
  have hm : ¬ Malformed headedJump := by
    unfold Malformed Headed
    decide
  obtain ⟨-, -, haccepted⟩ := load_image hone headedJump
  obtain ⟨o, t, hload, hloaded⟩ := haccepted hm
  obtain ⟨w, h, hw, hhigh, rfl, hwidth, hheight⟩ := hloaded.headed hheaded
  obtain rfl : 8 = w := Option.some.inj hw
  obtain rfl : 4 = h := Option.some.inj hhigh
  have hvd : t.state.reg 13 = 8 := by
    rw [hloaded.width, hwidth]
    rfl
  have hve : t.state.reg 14 = 4 := by
    rw [hloaded.height, hheight]
    rfl
  have hbefore := hloaded.outside 0x50 (by decide)
  have hkept := hloaded.registers 12 (by decide) (by decide)
  have hfirst := hloaded.memory 0 0x12 rfl
  obtain ⟨b, screen, v, rfl⟩ := hloaded.rest
  exact ⟨m₀, h₀, hone, _, hload, hfirst, hbefore, hwidth, hheight, hvd, hve, hkept, rfl, rfl⟩

end Program

end SpriteVM
