import Mathlib.Tactic.SplitIfs
import SpriteVM.Proofs.Outcome

namespace SpriteVM

inductive Part
  | pc | sp | i | v | stack | keys | delayTimer | soundTimer
  | blocking | keyTarget | draw | halted | quit | screen | random | bus
  deriving DecidableEq, Repr

/-- The part is in `t` as it was in `c`. -/
def Part.Same (c t : Core) : Part → Prop
  | pc => t.state.pc = c.state.pc
  | sp => t.state.sp = c.state.sp
  | i => t.state.i = c.state.i
  | v => t.state.v = c.state.v
  | stack => t.state.stack = c.state.stack
  | keys => t.state.keys = c.state.keys
  | delayTimer => t.state.delayTimer = c.state.delayTimer
  | soundTimer => t.state.soundTimer = c.state.soundTimer
  | blocking => t.state.blocking = c.state.blocking
  | keyTarget => t.state.keyTarget = c.state.keyTarget
  | draw => t.state.draw = c.state.draw
  | halted => t.state.halted = c.state.halted
  | quit => t.state.quit = c.state.quit
  | screen => t.state.screen = c.state.screen
  | random => t.state.random = c.state.random
  | bus => t.bus = c.bus

theorem Part.same_trans {p : Part} {c t u : Core} (h : p.Same c t) (h' : p.Same t u) :
    p.Same c u := by
  cases p <;> exact Eq.trans h' h

/-- The parts that instructions of a kind write. -/
def Kind.writes : Kind → List Part
  | .clear => [.pc, .draw, .screen]
  | .ret | .call => [.pc, .sp, .stack]
  | .jump | .jumpOffset | .nop => [.pc]
  | .skipEqImm | .skipNeImm | .skipEqReg | .skipNeReg | .skipKeyDown | .skipKeyUp => [.pc]
  | .loadImm | .addImm | .copy | .or | .and | .xor => [.pc, .v]
  | .add | .sub | .shiftRight | .reverseSub | .shiftLeft | .readDelay => [.pc, .v]
  | .random => [.pc, .v, .random]
  | .setIndex | .addIndex | .fontAddress => [.pc, .i]
  | .bcd | .storeRegisters => [.pc, .bus]
  | .loadRegisters => [.pc, .v, .bus]
  | .draw => [.pc, .v, .draw, .screen, .bus]
  | .waitKey => [.pc, .blocking, .keyTarget]
  | .writeDelay => [.pc, .delayTimer]
  | .writeSound => [.pc, .soundTimer]
  | .halt => [.halted]
  | .unknown => [.quit]

namespace Core

variable {α β : Type} {ps qs : List Part} {c t u : Core}

/-- Every part but these is in `t` as it was in `c`. -/
def ChangesOnly (ps : List Part) (c t : Core) : Prop := ∀ p ∉ ps, p.Same c t

theorem ChangesOnly.refl (ps : List Part) (c : Core) : ChangesOnly ps c c := by
  intro p _
  cases p <;> rfl

theorem ChangesOnly.trans (h : ChangesOnly ps c t) (h' : ChangesOnly ps t u) :
    ChangesOnly ps c u :=
  fun p hp => Part.same_trans (h p hp) (h' p hp)

theorem ChangesOnly.mono (h : ChangesOnly ps c t) (hs : ps ⊆ qs) : ChangesOnly qs c t :=
  fun p hp => h p fun hm => hp (hs hm)

/-- Wherever it begins and however it ends, an action writes only these parts. -/
def Writes (ps : List Part) (act : Exec α) : Prop :=
  ∀ c, Ends act (fun _ t => ChangesOnly ps c t) (fun _ t => ChangesOnly ps c t) c

namespace Writes

variable {act : Exec α} {next : α → Exec β}

theorem pure (a : α) : Writes ps (Pure.pure a : Exec α) := fun c => ChangesOnly.refl ps c

theorem read (view : State → α) : Writes ps (Core.read view) := fun c => ChangesOnly.refl ps c

theorem fail (cause : State → Fault) : Writes ps (Core.fail cause : Exec α) :=
  fun c => ChangesOnly.refl ps c

theorem update {change : State → State} (h : ∀ c, ChangesOnly ps c ⟨change c.state, c.bus⟩) :
    Writes ps (Core.update change) := h

theorem bind (h : Writes ps act) (hn : ∀ a, Writes ps (next a)) : Writes ps (act >>= next) := by
  intro c
  rw [ends_bind]
  refine (h c).imp (fun a t ht => ?_) fun _ _ ht => ht
  exact (hn a t).imp (fun _ _ hu => ht.trans hu) fun _ _ hu => ht.trans hu

theorem mono (h : Writes ps act) (hs : ps ⊆ qs) : Writes qs act :=
  fun c => (h c).imp (fun _ _ ht => ht.mono hs) fun _ _ ht => ht.mono hs

end Writes

theorem changesOnly_iff : ChangesOnly ps c t ↔
    (.pc ∉ ps → t.state.pc = c.state.pc) ∧ (.sp ∉ ps → t.state.sp = c.state.sp) ∧
    (.i ∉ ps → t.state.i = c.state.i) ∧ (.v ∉ ps → t.state.v = c.state.v) ∧
    (.stack ∉ ps → t.state.stack = c.state.stack) ∧ (.keys ∉ ps → t.state.keys = c.state.keys) ∧
    (.delayTimer ∉ ps → t.state.delayTimer = c.state.delayTimer) ∧
    (.soundTimer ∉ ps → t.state.soundTimer = c.state.soundTimer) ∧
    (.blocking ∉ ps → t.state.blocking = c.state.blocking) ∧
    (.keyTarget ∉ ps → t.state.keyTarget = c.state.keyTarget) ∧
    (.draw ∉ ps → t.state.draw = c.state.draw) ∧
    (.halted ∉ ps → t.state.halted = c.state.halted) ∧ (.quit ∉ ps → t.state.quit = c.state.quit) ∧
    (.screen ∉ ps → t.state.screen = c.state.screen) ∧
    (.random ∉ ps → t.state.random = c.state.random) ∧ (.bus ∉ ps → t.bus = c.bus) := by
  constructor
  · intro h
    exact ⟨h .pc, h .sp, h .i, h .v, h .stack, h .keys, h .delayTimer, h .soundTimer, h .blocking,
      h .keyTarget, h .draw, h .halted, h .quit, h .screen, h .random, h .bus⟩
  · rintro ⟨h₁, h₂, h₃, h₄, h₅, h₆, h₇, h₈, h₉, h₁₀, h₁₁, h₁₂, h₁₃, h₁₄, h₁₅, h₁₆⟩ p
    cases p <;> assumption

theorem changes_pc (c : Core) (pc : Int) :
    ChangesOnly [.pc] c ⟨{ c.state with pc := pc }, c.bus⟩ := by simp [changesOnly_iff]

theorem changes_v (c : Core) (v : Vector Int 16) :
    ChangesOnly [.v] c ⟨{ c.state with v := v }, c.bus⟩ := by simp [changesOnly_iff]

theorem changes_bus (c : Core) (bus : Bus) : ChangesOnly [.bus] c ⟨c.state, bus⟩ := by
  simp [changesOnly_iff]

theorem changes_sp (c : Core) (sp : Int) :
    ChangesOnly [.sp] c ⟨{ c.state with sp := sp }, c.bus⟩ := by simp [changesOnly_iff]

theorem changes_stack (c : Core) (sp : Int) (stack : Vector Int 16) :
    ChangesOnly [.sp, .stack] c ⟨{ c.state with sp := sp, stack := stack }, c.bus⟩ := by
  simp [changesOnly_iff]

theorem onBus_writes (act : EStateM Fault Bus α) : Writes [.bus] (onBus act) := by
  intro c
  rw [ends_onBus]
  exact Ends.of_forall (fun _ b _ => changes_bus c b) fun _ b _ => changes_bus c b

theorem advance_writes (skip : Bool) : Writes [.pc] (advance skip) := fun c => changes_pc c _

theorem change_writes {f : State → State} (h : ∀ c, ChangesOnly ps c ⟨f c.state, c.bus⟩) :
    Writes (.pc :: ps) (change f) := by
  have hf : Writes (.pc :: ps) (update f) := (Writes.update h).mono (List.subset_cons_self _ _)
  have hpc : Writes (.pc :: ps) (advance false) := (advance_writes false).mono (by simp)
  exact hf.bind fun _ => hpc

theorem skipIf_writes (condition : State → Bool) : Writes [.pc] (skipIf condition) :=
  (Writes.read condition).bind advance_writes

theorem checkTarget_writes (target : Int) : Writes ps (checkTarget target) := by
  unfold checkTarget
  split
  · exact Writes.fail _
  · split
    · exact Writes.fail _
    · exact Writes.pure ()

theorem jumpTo_writes (target : Int) : Writes [.pc] (jumpTo target) :=
  (checkTarget_writes target).bind fun _ => Writes.update fun c => changes_pc c target

theorem push_writes (address : Int) : Writes [.sp, .stack] (onState (State.push address)) := by
  intro c
  rw [ends_onState]
  unfold Ends State.push
  by_cases hf : 16 ≤ c.state.sp
  · rw [if_pos hf]
    exact ChangesOnly.refl _ c
  · rw [if_neg hf]
    cases slot? c.state.sp with
    | none => exact ChangesOnly.refl _ c
    | some k => exact changes_stack c _ _

theorem pop_writes : Writes [.sp] (onState State.pop) := by
  intro c
  rw [ends_onState]
  unfold Ends State.pop
  by_cases hz : c.state.sp ≤ 0
  · rw [if_pos hz]
    exact ChangesOnly.refl _ c
  · rw [if_neg hz]
    dsimp only
    cases slot? (c.state.sp - 1) with
    | none => exact changes_sp c _
    | some k => exact changes_sp c _

theorem call_writes (target : Int) : Writes [.pc, .sp, .stack] (call target) := by
  have hpush (address : Int) : Writes [.pc, .sp, .stack] (onState (State.push address)) :=
    (push_writes address).mono (List.subset_cons_self _ _)
  have hjump : Writes [.pc, .sp, .stack] (jumpTo target) := (jumpTo_writes target).mono (by simp)
  exact (checkTarget_writes target).bind fun _ => (Writes.read _).bind fun pc =>
    (hpush (pc + 2)).bind fun _ => hjump

theorem ret_writes : Writes [.pc, .sp, .stack] ret := by
  have hpop : Writes [.pc, .sp, .stack] (onState State.pop) := pop_writes.mono (by simp)
  exact hpop.bind fun target => (jumpTo_writes target).mono (by simp)

theorem keyDown_writes (x : Fin 16) : Writes ps (keyDown x) := by
  refine (Writes.read _).bind fun key => ?_
  split_ifs
  · exact Writes.fail _
  · cases slot? key with
    | none => exact Writes.fail _
    | some k => exact Writes.read _

theorem storeRun_writes (base : Int) (rs : List (Fin 16)) : Writes [.bus] (storeRun base rs) := by
  induction rs with
  | nil => exact Writes.pure ()
  | cons r rs ih => exact (Writes.read _).bind fun value => (onBus_writes _).bind fun _ => ih

theorem loadRun_writes (base : Int) (rs : List (Fin 16)) : Writes [.v, .bus] (loadRun base rs) := by
  induction rs with
  | nil => exact Writes.pure ()
  | cons r rs ih =>
    have hread : Writes [.v, .bus] (onBus (Bus.read (base + r.val))) :=
      (onBus_writes _).mono (List.subset_cons_self _ _)
    have hset (value : Int) : Writes [.v, .bus] (update (·.setReg r value)) :=
      Writes.update fun c => (changes_v c _).mono (by simp)
    exact hread.bind fun value => (hset value).bind fun _ => ih

theorem storeDecimal_writes (x : Fin 16) : Writes [.bus] (storeDecimal x) :=
  (Writes.read _).bind fun _ => (Writes.read _).bind fun _ =>
    (onBus_writes _).bind fun _ => (onBus_writes _).bind fun _ => onBus_writes _

theorem drawRows_writes (left top : Nat) (address : Int) (n : Nat) :
    Writes [.screen, .bus] (drawRows left top address n) := by
  induction n generalizing top address with
  | zero => exact Writes.pure false
  | succ n ih =>
    have hread : Writes [.screen, .bus] (onBus (Bus.read address)) :=
      (onBus_writes _).mono (List.subset_cons_self _ _)
    have hrow (row : Int) : Writes [.screen, .bus] (drawRow left top row) :=
      fun c => by simp [Ends, drawRow_apply, changesOnly_iff]
    exact hread.bind fun row => (hrow row).bind fun _ => (ih _ _).bind fun _ => Writes.pure _

theorem drawSprite_writes (x y : Fin 16) (n : Nat) :
    Writes [.v, .draw, .screen, .bus] (drawSprite x y n) := by
  refine (Writes.read _).bind fun s => ?_
  refine Writes.bind ((drawRows_writes _ _ _ _).mono (by simp)) fun hit => ?_
  exact Writes.update fun c => by simp [changesOnly_iff, State.setReg]

/-- An action and the advance after it. -/
theorem then_advance_writes {act : Exec Unit} (h : Writes ps act) :
    Writes (.pc :: ps) (do act; advance false) :=
  (h.mono (List.subset_cons_self _ _)).bind fun _ => (advance_writes false).mono (by simp)

/-- An instruction leaves alone what the list of its kind does not name. -/
theorem execute_writes (d : Instruction) : Writes d.kind.writes (execute d) := by
  unfold execute
  cases d.kind with
  | clear => exact change_writes fun c => by simp [changesOnly_iff]
  | ret => exact ret_writes
  | jump => exact jumpTo_writes d.nnn
  | call => exact call_writes d.nnn
  | jumpOffset => exact (Writes.read _).bind fun offset => jumpTo_writes (d.nnn + offset)
  | skipEqImm | skipNeImm | skipEqReg | skipNeReg => exact skipIf_writes _
  | loadImm | addImm | copy | or | and | xor => exact change_writes fun c => changes_v c _
  | add | sub | shiftRight | reverseSub | shiftLeft => exact change_writes fun c => changes_v c _
  | random =>
    exact change_writes fun c => by
      simp [changesOnly_iff, drawRandom, State.nextByte, State.setReg]
  | setIndex | addIndex | fontAddress => exact change_writes fun c => by simp [changesOnly_iff]
  | bcd => exact then_advance_writes (storeDecimal_writes d.x)
  | storeRegisters => exact then_advance_writes ((Writes.read _).bind fun i => storeRun_writes i _)
  | loadRegisters => exact then_advance_writes ((Writes.read _).bind fun i => loadRun_writes i _)
  | draw => exact then_advance_writes (drawSprite_writes d.x d.y d.nibble.val)
  | skipKeyDown => exact (keyDown_writes d.x).bind advance_writes
  | skipKeyUp => exact (keyDown_writes d.x).bind fun down => advance_writes (!down)
  | waitKey => exact change_writes fun c => by simp [changesOnly_iff]
  | readDelay => exact change_writes fun c => changes_v c _
  | writeDelay => exact change_writes fun c => by simp [changesOnly_iff]
  | writeSound => exact change_writes fun c => by simp [changesOnly_iff]
  | nop => exact advance_writes false
  | halt => exact Writes.update fun c => by simp [changesOnly_iff, Kind.writes]
  | unknown => exact Writes.update fun c => by simp [changesOnly_iff, Kind.writes]

end Core

end SpriteVM
