import SpriteVM.Proofs.Bus.Cells
import SpriteVM.Proofs.Instruction.Decode
import SpriteVM.Proofs.Machine.Parts
import SpriteVM.Proofs.Machine.Sprite

namespace SpriteVM

namespace Instruction

/-- The registers that an instruction writes. -/
def outputs (d : Instruction) : List (Fin 16) :=
  match d.kind with
  | .loadImm | .addImm | .copy | .or | .and | .xor | .random | .readDelay => [d.x]
  | .add | .sub | .shiftRight | .reverseSub | .shiftLeft => [d.x, State.flagRegister]
  | .loadRegisters => Core.upTo d.x
  | .draw => [State.flagRegister]
  | _ => []

/-- The addresses that an instruction begun in `s` writes to. -/
def stores (d : Instruction) (s : State) : List Int :=
  match d.kind with
  | .bcd => [s.i, s.i + 1, s.i + 2]
  | .storeRegisters => (Core.upTo d.x).map fun r => s.i + r.val
  | _ => []

end Instruction

/-- Whether instructions of a kind may change a part. The counter is left out here; which registers and
which memory is told by the instruction. -/
def Part.writtenBy (k : Kind) : Part → Bool
  | .pc | .v | .bus => true
  | .i => k ∈ [.setIndex, .addIndex, .fontAddress]
  | .sp | .stack => k ∈ [.call, .ret]
  | .screen | .draw => k ∈ [.clear, .draw]
  | .delayTimer => k = .writeDelay
  | .soundTimer => k = .writeSound
  | .blocking | .keyTarget => k = .waitKey
  | .halted => k = .halt
  | .quit => k = .unknown
  | .random => k = .random
  | .keys => false

theorem Kind.writtenBy_of_mem {k : Kind} : ∀ p ∈ k.writes, p.writtenBy k = true := by
  cases k <;> decide

namespace Core

/-- No registers but these were written, and no memory but at these addresses, and the picture has the
size it had. -/
structure Touched (rs : List (Fin 16)) (as : List Int) (c t : Core) : Prop where
  registers : ∀ r ∉ rs, t.state.reg r = c.state.reg r
  memory : c.bus.Altered as t.bus
  width : t.state.screen.width = c.state.screen.width
  height : t.state.screen.height = c.state.screen.height

variable {α β : Type} {ps : List Part} {rs rs' : List (Fin 16)} {as as' : List Int} {c t u : Core}

namespace Touched

theorem refl (rs : List (Fin 16)) (as : List Int) (c : Core) : Touched rs as c c :=
  ⟨fun _ _ => rfl, .refl as c.bus, rfl, rfl⟩

theorem trans (h : Touched rs as c t) (h' : Touched rs as t u) : Touched rs as c u where
  registers := fun r hr => (h'.registers r hr).trans (h.registers r hr)
  memory := h.memory.trans h'.memory
  width := h'.width.trans h.width
  height := h'.height.trans h.height

theorem mono (h : Touched rs as c t) (hr : rs ⊆ rs') (ha : as ⊆ as') : Touched rs' as' c t where
  registers := fun r hnot => h.registers r fun hm => hnot (hr hm)
  memory := h.memory.mono ha
  width := h.width
  height := h.height

theorem setReg (c : Core) (x : Fin 16) (value : Int) :
    Touched [x] as c ⟨c.state.setReg x value, c.bus⟩ where
  registers := by
    intro r hr
    have hne : x ≠ r := fun he => hr (List.mem_singleton.2 he.symm)
    exact State.reg_setReg_of_ne c.state hne value
  memory := .refl as c.bus
  width := rfl
  height := rfl

theorem onBus {bus : Bus} (h : c.bus.Altered as bus) : Touched rs as c ⟨c.state, bus⟩ :=
  ⟨fun _ _ => rfl, h, rfl, rfl⟩

theorem onScreen {screen : Screen} (hw : screen.width = c.state.screen.width)
    (hh : screen.height = c.state.screen.height) :
    Touched rs as c ⟨{ c.state with screen := screen }, c.bus⟩ :=
  ⟨fun _ _ => rfl, .refl as c.bus, hw, hh⟩

end Touched

theorem left_onBus (act : EStateM Fault Bus α) (c : Core) :
    left (onBus act c) = ⟨c.state, left (act c.bus)⟩ := by
  unfold onBus
  dsimp only
  cases act c.bus <;> rfl

/-- Wherever it begins and however it ends, an action writes no registers but these and no memory but
at these addresses. -/
def Touches (rs : List (Fin 16)) (as : List Int) (act : Exec α) : Prop :=
  ∀ c, Touched rs as c (left (act c))

namespace Touches

variable {act : Exec α} {next : α → Exec β}

theorem pure (a : α) : Touches rs as (Pure.pure a : Exec α) := Touched.refl rs as

/-- The first action may write elsewhere if it begins elsewhere. -/
theorem bind_at (h : Touched rs as c (left (act c))) (hn : ∀ a, Touches rs as (next a)) :
    Touched rs as c (left ((act >>= next) c)) := by
  cases hr : act c with
  | ok a t =>
    rw [hr] at h
    rw [bind_of_ok hr]
    exact h.trans (hn a t)
  | error f t =>
    rw [hr] at h
    rw [bind_of_error hr]
    exact h

theorem bind (h : Touches rs as act) (hn : ∀ a, Touches rs as (next a)) :
    Touches rs as (act >>= next) :=
  fun c => bind_at (h c) hn

/-- An action that has no part of what is looked at here to write. -/
theorem of_writes (h : Writes ps act) (hv : .v ∉ ps) (hbus : .bus ∉ ps) (hscreen : .screen ∉ ps) :
    Touches rs as act := by
  intro c
  have hsame : ChangesOnly ps c (left (act c)) := ends_left.1 (h c)
  have hregisters : (left (act c)).state.v = c.state.v := hsame .v hv
  have hmemory : (left (act c)).bus = c.bus := hsame .bus hbus
  have hpicture : (left (act c)).state.screen = c.state.screen := hsame .screen hscreen
  constructor
  · intro r _
    rw [State.reg, hregisters, State.reg]
  · rw [hmemory]
    exact .refl as c.bus
  · rw [hpicture]
  · rw [hpicture]

theorem read (view : State → α) : Touches rs as (Core.read view) := Touched.refl rs as

theorem update {f : State → State} (h : ∀ c, Touched rs as c ⟨f c.state, c.bus⟩) :
    Touches rs as (update f) := h

theorem advance (skip : Bool) : Touches rs as (advance skip) :=
  of_writes (advance_writes skip) (by decide) (by decide) (by decide)

theorem then_advance {act : Exec Unit} (h : Touches rs as act) :
    Touches rs as (do act; Core.advance false) :=
  h.bind fun _ => advance false

theorem change {f : State → State} (h : ∀ c, Touched rs as c ⟨f c.state, c.bus⟩) :
    Touches rs as (change f) :=
  (update h).then_advance

theorem busRead (address : Int) : Touches rs as (onBus (Bus.read address)) := by
  intro c
  rw [left_onBus]
  exact Touched.onBus (Bus.read_altered address c.bus)

theorem busWrite {address : Int} (ha : address ∈ as) (data : Int) :
    Touches rs as (onBus (Bus.write address data)) := by
  intro c
  rw [left_onBus]
  have hwrite := Bus.write_altered address data c.bus
  exact Touched.onBus (hwrite.mono (by simpa using ha))

theorem setReg {x : Fin 16} (hx : x ∈ rs) (value : State → Int) :
    Touches rs as (Core.update fun s : State => s.setReg x (value s)) :=
  update fun c => (Touched.setReg c x _).mono (by simpa using hx) fun _ h => h

theorem change_setReg {x : Fin 16} (hx : x ∈ rs) (value : State → Int) :
    Touches rs as (Core.change fun s => s.setReg x (value s)) :=
  (setReg hx value).then_advance

theorem change_setFlagged (x : Fin 16) (r : State → Flagged) :
    Touches [x, State.flagRegister] as (Core.change fun s => s.setFlagged x (r s)) :=
  change fun c => by
    have hvalue : Touched [x, State.flagRegister] as c ⟨c.state.setReg x (r c.state).value, c.bus⟩ :=
      (Touched.setReg c x _).mono (by simp) fun _ h => h
    exact hvalue.trans ((Touched.setReg _ State.flagRegister _).mono (by simp) fun _ h => h)

theorem drawRandom (x : Fin 16) (mask : Int) : Touches [x] as (Core.change (drawRandom x mask)) :=
  change fun c => by
    have hbyte : Touched [x] as c ⟨c.state.nextByte.2, c.bus⟩ :=
      ⟨fun _ _ => rfl, .refl as c.bus, rfl, rfl⟩
    exact hbyte.trans (Touched.setReg _ x _)

theorem storeRun (base : Int) {rs' : List (Fin 16)} (h : ∀ r ∈ rs', base + r.val ∈ as) :
    Touches rs as (storeRun base rs') := by
  induction rs' with
  | nil => exact pure ()
  | cons r rs' ih =>
    obtain ⟨hr, hrest⟩ := List.forall_mem_cons.1 h
    exact (read _).bind fun value => (busWrite hr value).bind fun _ => ih hrest

theorem loadRun (base : Int) {rs' : List (Fin 16)} (h : rs' ⊆ rs) : Touches rs as (loadRun base rs') := by
  induction rs' with
  | nil => exact pure ()
  | cons r rs' ih =>
    obtain ⟨hr, hrest⟩ := List.cons_subset.1 h
    exact (busRead _).bind fun value => (setReg hr fun _ => value).bind fun _ => ih hrest

theorem drawRows (left top : Nat) (address : Int) (n : Nat) :
    Touches rs as (drawRows left top address n) := by
  induction n generalizing top address with
  | zero => exact pure false
  | succ n ih =>
    have hrow (row : Int) : Touches rs as (drawRow left top row) := by
      intro c
      obtain ⟨hw, hh⟩ := Screen.drawRow_size left top row c.state.screen
      rw [drawRow_apply]
      exact Touched.onScreen hw hh
    exact (busRead address).bind fun row => (hrow row).bind fun _ => (ih _ _).bind fun _ => pure _

theorem drawSprite (x y : Fin 16) (n : Nat) :
    Touches [State.flagRegister] as (drawSprite x y n) := by
  refine (read _).bind fun s => (drawRows _ _ _ _).bind fun hit => update fun c => ?_
  have hflag : Touched [State.flagRegister] as c
      ⟨c.state.setReg State.flagRegister (if hit then 1 else 0), c.bus⟩ := Touched.setReg ..
  exact ⟨hflag.registers, hflag.memory, hflag.width, hflag.height⟩

end Touches

theorem storeDecimal_touched (x : Fin 16) (c : Core) :
    Touched rs [c.state.i, c.state.i + 1, c.state.i + 2] c (left (storeDecimal x c)) := by
  have hstores (base value : Int) : Touches rs [base, base + 1, base + 2] (do
      onBus (Bus.write base (value / 100))
      onBus (Bus.write (base + 1) (value / 10 % 10))
      onBus (Bus.write (base + 2) (value % 10))) :=
    (Touches.busWrite (by simp) _).bind fun _ =>
      (Touches.busWrite (by simp) _).bind fun _ => Touches.busWrite (by simp) _
  exact hstores c.state.i (c.state.reg x) c

theorem storeRegisters_touched (x : Fin 16) (c : Core) :
    Touched rs ((upTo x).map fun r => c.state.i + r.val) c (left (storeRegisters x c)) := by
  have hstores (base : Int) :
      Touches rs ((upTo x).map fun r => base + r.val) (storeRun base (upTo x)) :=
    Touches.storeRun base fun r hr => List.mem_map.2 ⟨r, hr, rfl⟩
  exact hstores c.state.i c

/-- An instruction writes no registers but its own, and no memory but where it stores, and never
changes the size of the picture. -/
theorem execute_touches (d : Instruction) (c : Core) :
    Touched d.outputs (d.stores c.state) c (left (execute d c)) := by
  unfold Instruction.outputs Instruction.stores execute
  cases d.kind with
  | clear => exact Touches.change (fun c => ⟨fun _ _ => rfl, .refl [] c.bus, rfl, rfl⟩) c
  | ret => exact Touches.of_writes ret_writes (by decide) (by decide) (by decide) c
  | jump => exact Touches.of_writes (jumpTo_writes d.nnn) (by decide) (by decide) (by decide) c
  | call => exact Touches.of_writes (call_writes d.nnn) (by decide) (by decide) (by decide) c
  | jumpOffset =>
    exact Touches.of_writes ((Writes.read _).bind fun offset => jumpTo_writes (d.nnn + offset))
      (by decide) (by decide) (by decide) c
  | skipEqImm | skipNeImm | skipEqReg | skipNeReg => exact Touches.advance _ c
  | loadImm | addImm | copy | or | and | xor | readDelay =>
    exact Touches.change_setReg List.mem_cons_self _ c
  | add | sub | shiftRight | reverseSub | shiftLeft => exact Touches.change_setFlagged d.x _ c
  | random => exact Touches.drawRandom d.x d.byte c
  | bcd => exact Touches.bind_at (storeDecimal_touched d.x c) fun _ => Touches.advance false
  | storeRegisters =>
    exact Touches.bind_at (storeRegisters_touched d.x c) fun _ => Touches.advance false
  | loadRegisters =>
    have hload : Touches (upTo d.x) [] (loadRegisters d.x) :=
      (Touches.read _).bind fun i => Touches.loadRun i fun _ h => h
    exact hload.then_advance c
  | draw => exact (Touches.drawSprite d.x d.y d.nibble.val).then_advance c
  | skipKeyDown =>
    exact Touches.of_writes ((keyDown_writes d.x).bind advance_writes) (by decide) (by decide)
      (by decide) c
  | skipKeyUp =>
    exact Touches.of_writes ((keyDown_writes d.x).bind fun down => advance_writes (!down))
      (by decide) (by decide) (by decide) c
  | nop => exact Touches.advance false c
  | halt | unknown => exact Touches.update (fun c => ⟨fun _ _ => rfl, .refl [] c.bus, rfl, rfl⟩) c
  | _ => exact Touches.change (fun c => ⟨fun _ _ => rfl, .refl [] c.bus, rfl, rfl⟩) c

/-- What an instruction begun in `c` leaves in `t` as it was. -/
structure Effect (d : Instruction) (c t : Core) : Prop where
  registers : ∀ r ∉ d.outputs, t.state.reg r = c.state.reg r
  memory : c.bus.Altered (d.stores c.state) t.bus
  cells : c.bus.layout.OneMemory → ∀ a ∉ d.stores c.state, t.bus.byte a = c.bus.byte a
  size : t.state.screen.width = c.state.screen.width ∧ t.state.screen.height = c.state.screen.height
  random : t.state.random =
    if d.kind = .random then c.state.random.nextByte.2 else c.state.random
  quit : (∃ e ∈ Instruction.table, e.fits d.word = true) → t.state.quit = c.state.quit
  others : ∀ p : Part, p.writtenBy d.kind = false → p.Same c t

theorem execute_others (d : Instruction) (c : Core) (p : Part) (hp : p.writtenBy d.kind = false) :
    p.Same c (left (execute d c)) := by
  have hsame : ChangesOnly d.kind.writes c (left (execute d c)) := ends_left.1 (execute_writes d c)
  refine hsame p fun hm => ?_
  rw [Kind.writtenBy_of_mem p hm] at hp
  contradiction

theorem execute_random {d : Instruction} (hk : d.kind = .random) (c : Core) :
    (left (execute d c)).state.random = c.state.random.nextByte.2 := by
  rw [execute, hk]
  rfl

/-- Whatever the word and the machine, and also where it fails, an instruction changes its own part of
the machine and nothing else. -/
theorem execute_effect (word address : Int) (c : Core) :
    Effect (Instruction.decode word address) c
      (left (execute (Instruction.decode word address) c)) := by
  have hfits : (∃ e ∈ Instruction.table, e.fits (Instruction.decode word address).word = true) →
      (Instruction.decode word address).kind ≠ .unknown := by
    rintro ⟨e, he, hfits⟩ hk
    have hnone : e.fits (Instruction.decode word address).word = false :=
      Instruction.decode_unknown_iff.1 hk e he
    rw [hnone] at hfits
    contradiction
  generalize Instruction.decode word address = d at hfits ⊢
  have htouched := execute_touches d c
  have hothers := execute_others d c
  constructor
  case registers => exact htouched.registers
  case memory => exact htouched.memory
  case cells => exact fun hone a ha => htouched.memory.byte_eq hone ha
  case size => exact ⟨htouched.width, htouched.height⟩
  case random =>
    split_ifs with hk
    · exact execute_random hk c
    · exact hothers .random (decide_eq_false hk)
  case quit => exact fun hknown => hothers .quit (decide_eq_false (hfits hknown))
  case others => exact hothers

end Core

end SpriteVM
