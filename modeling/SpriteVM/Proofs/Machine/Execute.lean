import Mathlib.Tactic.SplitIfs
import SpriteVM.Proofs.Machine.Sound

namespace SpriteVM

namespace Core

/-- A sound state on a bus of this layout. -/
structure Sound (L : Layout) (c : Core) : Prop where
  state : c.state.Sound
  layout : c.bus.layout = L

/-- The same, with the counter at an instruction. -/
structure Ready (L : Layout) (c : Core) : Prop where
  state : c.state.Ready
  layout : c.bus.layout = L

variable {L : Layout} {c : Core}

theorem Ready.sound (h : c.Ready L) : c.Sound L := ⟨h.state.toSound, h.layout⟩

/-- How an instruction ends: sound, whatever came of it. -/
def EndsSound (L : Layout) (act : Exec Unit) (c : Core) : Prop :=
  Ends act (fun _ t => t.Sound L) (fun _ t => t.Sound L) c

theorem advance_sound (hc : c.Ready L) (skip : Bool) : EndsSound L (advance skip) c :=
  ⟨hc.state.advance skip, hc.layout⟩

theorem change_sound {f : State → State} (hc : c.Ready L) (hf : (f c.state).Ready) :
    EndsSound L (change f) c :=
  advance_sound (c := ⟨f c.state, c.bus⟩) ⟨hf, hc.layout⟩ false

/-- An action that keeps the machine ready, and the advance after it. -/
theorem then_advance_sound {act : Exec Unit} (hc : c.Ready L) (h : Keeps (Ready L) act) :
    EndsSound L (do act; advance false) c := by
  rw [EndsSound, ends_bind]
  exact (h c hc).imp (fun _ t ht => advance_sound ht false) fun _ _ ht => ht.sound

theorem ends_checkTarget {Q : Unit → Core → Prop} {E : Fault → Core → Prop} (target : Int)
    (c : Core) : Ends (checkTarget target) Q E c ↔
      if 0 ≤ target ∧ target < State.memorySize then
        if target % 2 = 0 then Q () c else E (.targetOdd target c.state.pc) c
      else E (.targetOutside target c.state.pc) c := by
  unfold checkTarget
  by_cases hr : 0 ≤ target ∧ target < State.memorySize
  · by_cases he : target % 2 = 0
    · rw [if_neg (not_not_intro hr), if_neg (not_not_intro he), if_pos hr, if_pos he]
      rfl
    · rw [if_neg (not_not_intro hr), if_pos he, if_pos hr, if_neg he]
      rfl
  · rw [if_pos hr, if_neg hr]
    rfl

theorem ends_jumpTo {Q : Unit → Core → Prop} {E : Fault → Core → Prop} (target : Int) (c : Core) :
    Ends (jumpTo target) Q E c ↔
      if 0 ≤ target ∧ target < State.memorySize then
        if target % 2 = 0 then Q () ⟨{ c.state with pc := target }, c.bus⟩
        else E (.targetOdd target c.state.pc) c
      else E (.targetOutside target c.state.pc) c := by
  rw [jumpTo, ends_bind, ends_checkTarget]
  rfl

theorem jumpTo_sound (hc : c.Sound L) (target : Int) : EndsSound L (jumpTo target) c := by
  rw [EndsSound, ends_jumpTo]
  split_ifs with hr he
  · exact ⟨hc.state.jump hr he, hc.layout⟩
  · exact hc
  · exact hc

theorem call_sound (hc : c.Ready L) (target : Int) : EndsSound L (call target) c := by
  rw [EndsSound, call, ends_bind, ends_checkTarget]
  split_ifs
  · rw [ends_bind, ends_read, ends_bind, ends_onState]
    obtain hf | ⟨k, hk⟩ := hc.state.full_or_free
    · rw [Ends, State.push_full hf]
      exact hc.sound
    · rw [Ends, State.push_free hk]
      have ht : Ready L ⟨_, c.bus⟩ := ⟨hc.state.push hk, hc.layout⟩
      exact jumpTo_sound ht.sound target
  · exact hc.sound
  · exact hc.sound

theorem ret_sound (hc : c.Sound L) : EndsSound L ret c := by
  rw [EndsSound, ret, ends_bind, ends_onState]
  obtain hz | ⟨k, hk⟩ := hc.state.empty_or_top
  · rw [Ends, State.pop_empty hz]
    exact hc
  · rw [Ends, State.pop_top hk]
    have ht : Sound L ⟨{ c.state with sp := k.val }, c.bus⟩ := ⟨hc.state.pop hk, hc.layout⟩
    exact jumpTo_sound ht _

theorem skipIf_sound (hc : c.Ready L) (condition : State → Bool) :
    EndsSound L (skipIf condition) c :=
  advance_sound hc (condition c.state)

/-- Looking at a key changes nothing. -/
theorem keyDown_keeps (I : Core → Prop) (x : Fin 16) : Keeps I (keyDown x) := by
  intro c hc
  unfold keyDown
  rw [ends_bind, ends_read]
  split_ifs
  · exact hc
  · cases slot? (c.state.reg x) <;> exact hc

theorem keySkip_sound (hc : c.Ready L) (x : Fin 16) (f : Bool → Bool) :
    EndsSound L (do advance (f (← keyDown x))) c := by
  rw [EndsSound, ends_bind]
  exact (keyDown_keeps (Ready L) x c hc).imp (fun down t ht => advance_sound ht (f down))
    fun _ _ ht => ht.sound

theorem onWrite_keeps (address data : Int) : Keeps (Ready L) (onBus (Bus.write address data)) := by
  intro c hc
  rw [ends_onBus]
  exact (Bus.ends_write address data c.bus).imp (fun _ b hb => ⟨hc.state, hb.trans hc.layout⟩)
    fun _ b hb => ⟨hc.state, hb ▸ hc.layout⟩

theorem storeRun_keeps (base : Int) (rs : List (Fin 16)) : Keeps (Ready L) (storeRun base rs) := by
  induction rs with
  | nil => exact Keeps.pure _ _
  | cons r rs ih =>
    intro c hc
    rw [storeRun, ends_bind, ends_read]
    exact (onWrite_keeps _ _).bind (fun _ => ih) c hc

theorem storeDecimal_keeps (x : Fin 16) : Keeps (Ready L) (storeDecimal x) := by
  intro c hc
  rw [storeDecimal, ends_bind, ends_read, ends_bind, ends_read]
  exact (onWrite_keeps _ _).bind (fun _ => (onWrite_keeps _ _).bind fun _ => onWrite_keeps _ _) c hc

/-- A byte read from memory, in the hands of the instruction. -/
theorem ends_onRead (hL : L.MemoryOnly) (hc : c.Ready L) (address : Int) :
    Ends (onBus (Bus.read address)) (fun d t => (0 ≤ d ∧ d ≤ 255) ∧ t.Ready L)
      (fun _ t => t.Ready L) c := by
  rw [ends_onBus]
  refine (Bus.ends_read (hc.layout ▸ hL) address).imp (fun d b h => ?_) fun _ b hb => ?_
  · exact ⟨h.1, hc.state, h.2.trans hc.layout⟩
  · exact ⟨hc.state, hb ▸ hc.layout⟩

theorem loadRun_keeps (hL : L.MemoryOnly) (base : Int) (rs : List (Fin 16)) :
    Keeps (Ready L) (loadRun base rs) := by
  induction rs with
  | nil => exact Keeps.pure _ _
  | cons r rs ih =>
    intro c hc
    rw [loadRun, ends_bind]
    refine (ends_onRead hL hc _).imp (fun d t h => ?_) fun _ _ ht => ht
    rw [ends_bind, ends_update]
    exact ih _ ⟨h.2.state.setReg r h.1, h.2.layout⟩

theorem storeRegisters_keeps (x : Fin 16) : Keeps (Ready L) (storeRegisters x) :=
  fun c hc => storeRun_keeps c.state.i (upTo x) c hc

theorem loadRegisters_keeps (hL : L.MemoryOnly) (x : Fin 16) : Keeps (Ready L) (loadRegisters x) :=
  fun c hc => loadRun_keeps hL c.state.i (upTo x) c hc

theorem ends_drawRow {Q : Bool → Core → Prop} {E : Fault → Core → Prop} (left top : Nat) (row : Int)
    (c : Core) : Ends (drawRow left top row) Q E c ↔
      Q (c.state.screen.drawRow left top row).1
        ⟨{ c.state with screen := (c.state.screen.drawRow left top row).2 }, c.bus⟩ := Iff.rfl

theorem drawRow_keeps (left top : Nat) (row : Int) : Keeps (Ready L) (drawRow left top row) := by
  intro c hc
  rw [ends_drawRow]
  exact ⟨{ hc.state with }, hc.layout⟩

theorem drawRows_keeps (hL : L.MemoryOnly) (left top : Nat) (address : Int) (n : Nat) :
    Keeps (Ready L) (drawRows left top address n) := by
  induction n generalizing top address with
  | zero => exact Keeps.pure _ _
  | succ n ih =>
    intro c hc
    rw [drawRows, ends_bind]
    refine (ends_onRead hL hc address).imp (fun row t h => ?_) fun _ _ ht => ht
    exact (drawRow_keeps left top row).bind (fun _ => (ih _ _).bind fun _ => Keeps.pure _ _) t h.2

theorem drawSprite_keeps (hL : L.MemoryOnly) (x y : Fin 16) (n : Nat) :
    Keeps (Ready L) (drawSprite x y n) := by
  intro c hc
  rw [drawSprite, ends_bind, ends_read, ends_bind]
  refine (drawRows_keeps hL _ _ _ _ c hc).imp (fun hit t ht => ?_) fun _ _ ht => ht
  have hf : 0 ≤ (if hit then (1 : Int) else 0) ∧ (if hit then (1 : Int) else 0) ≤ 255 := by
    split <;> decide
  exact ⟨{ ht.state.setReg State.flagRegister hf with }, ht.layout⟩

theorem execute_sound (hL : L.MemoryOnly) (d : Instruction) (hc : c.Ready L) :
    EndsSound L (execute d) c := by
  have hx := hc.state.reg d.x
  have hy := hc.state.reg d.y
  have hb : 0 ≤ d.byte ∧ d.byte ≤ 255 := by
    unfold Decoded.byte
    omega
  have hn : 0 ≤ d.nnn ∧ d.nnn ≤ 0xFFF := by
    unfold Decoded.nnn
    omega
  unfold execute
  cases d.kind with
  | clear => exact change_sound hc { hc.state with }
  | ret => exact ret_sound hc.sound
  | jump => exact jumpTo_sound hc.sound d.nnn
  | call => exact call_sound hc d.nnn
  | jumpOffset => exact jumpTo_sound hc.sound (d.nnn + c.state.reg State.offsetRegister)
  | skipEqImm | skipNeImm | skipEqReg | skipNeReg => exact skipIf_sound hc _
  | loadImm => exact change_sound hc (hc.state.setReg d.x hb)
  | addImm => exact change_sound hc (hc.state.setReg d.x (by omega))
  | copy => exact change_sound hc (hc.state.setReg d.x hy)
  | or => exact change_sound hc (hc.state.setReg d.x (Bits.or_byte hx hy))
  | and => exact change_sound hc (hc.state.setReg d.x (Bits.and_byte hx.1 hy))
  | xor => exact change_sound hc (hc.state.setReg d.x (Bits.xor_byte hx hy))
  | add =>
    obtain ⟨hv, hf⟩ := Flagged.sum_bytes (c.state.reg d.x) (c.state.reg d.y)
    exact change_sound hc (hc.state.setFlagged d.x hv hf)
  | sub =>
    obtain ⟨hv, hf⟩ := Flagged.difference_bytes (c.state.reg d.x) (c.state.reg d.y)
    exact change_sound hc (hc.state.setFlagged d.x hv hf)
  | shiftRight =>
    obtain ⟨hv, hf⟩ := Flagged.halved_bytes (c.state.reg d.x)
    exact change_sound hc (hc.state.setFlagged d.x hv hf)
  | reverseSub =>
    obtain ⟨hv, hf⟩ := Flagged.difference_bytes (c.state.reg d.y) (c.state.reg d.x)
    exact change_sound hc (hc.state.setFlagged d.x hv hf)
  | shiftLeft =>
    obtain ⟨hv, hf⟩ := Flagged.doubled_bytes (c.state.reg d.x)
    exact change_sound hc (hc.state.setFlagged d.x hv hf)
  | random => exact change_sound hc (hc.state.drawRandom d.x hb)
  | setIndex => exact change_sound hc { hc.state with index := hn }
  | addIndex => exact change_sound hc { hc.state with index := by dsimp only; omega }
  | fontAddress => exact change_sound hc { hc.state with index := Font.address_index _ }
  | bcd => exact then_advance_sound hc (storeDecimal_keeps d.x)
  | storeRegisters => exact then_advance_sound hc (storeRegisters_keeps d.x)
  | loadRegisters => exact then_advance_sound hc (loadRegisters_keeps hL d.x)
  | draw => exact then_advance_sound hc (drawSprite_keeps hL d.x d.y d.nibble.val)
  | skipKeyDown => exact keySkip_sound hc d.x id
  | skipKeyUp => exact keySkip_sound hc d.x not
  | waitKey => exact change_sound hc { hc.state with keyTarget := by dsimp only; omega }
  | readDelay => exact change_sound hc (hc.state.setReg d.x hc.state.delay)
  | writeDelay => exact change_sound hc { hc.state with delay := hx }
  | writeSound => exact change_sound hc { hc.state with sound := hx }
  | nop => exact advance_sound hc false
  | halt | unknown => exact ⟨{ hc.state with }, hc.layout⟩

end Core

end SpriteVM
