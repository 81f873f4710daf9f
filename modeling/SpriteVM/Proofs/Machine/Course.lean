import SpriteVM.Proofs.Instruction.Decode
import SpriteVM.Proofs.Machine.CallStack

namespace SpriteVM

/-- Where an instruction sends the counter: to the next instruction, past it if `taken`, to a target,
or nowhere. -/
inductive Course
  | next
  | skip (taken : Bool)
  | jump (target : Int)
  | stop
  deriving DecidableEq, Repr

/-- The course at `p` leads to `q`. A target is in memory and even. -/
def Course.Leads (p q : Int) : Course → Prop
  | next => q = p + 2
  | skip taken => q = p + (if taken then 4 else 2)
  | jump target => q = target ∧ Core.Valid target
  | stop => q = p

/-- The address that a return goes to, if the stack pointer has a place below it. -/
def State.top? (s : State) : Option Int := (slot? (s.sp - 1)).map s.stack.get

/-- Whether the key with this number is down, if there is such a key. -/
def State.pressed? (s : State) (key : Int) : Option Bool := (slot? key).map s.keys.get

/-- The course of an instruction begun in `s`. There is none for a return without a place to take its
target from, or where a register names no key. -/
def Instruction.course? (d : Instruction) (s : State) : Option Course :=
  match d.kind with
  | .jump | .call => some (.jump d.nnn)
  | .jumpOffset => some (.jump (d.nnn + s.reg State.offsetRegister))
  | .ret => s.top?.map .jump
  | .skipEqImm => some (.skip (s.reg d.x = d.byte))
  | .skipNeImm => some (.skip (s.reg d.x ≠ d.byte))
  | .skipEqReg => some (.skip (s.reg d.x = s.reg d.y))
  | .skipNeReg => some (.skip (s.reg d.x ≠ s.reg d.y))
  | .skipKeyDown => (s.pressed? (s.reg d.x)).map .skip
  | .skipKeyUp => (s.pressed? (s.reg d.x)).map fun down => .skip (!down)
  | .halt | .unknown => some .stop
  | _ => some .next

namespace State

variable {s t : State}

theorem pop_top? {target : Int} (h : pop s = .ok target t) : s.top? = some target := by
  unfold pop at h
  split at h
  · contradiction
  · dsimp only at h
    unfold top?
    cases hk : slot? (s.sp - 1) with
    | none => simp [hk] at h
    | some k =>
      rw [hk] at h
      exact congrArg some (EStateM.Result.ok.inj h).1

end State

namespace Core

variable {α : Type} {ps : List Part} {c : Core} {course : Option Course}

theorem keyDown_pressed? {x : Fin 16} {down : Bool} {t : Core} (h : keyDown x c = .ok down t) :
    c.state.pressed? (c.state.reg x) = some down := by
  rw [keyDown, bind_apply, read_apply] at h
  dsimp only at h
  unfold State.pressed?
  split at h
  · contradiction
  · cases hk : slot? (c.state.reg x) with
    | none => simp [hk] at h
    | some k =>
      rw [hk] at h
      exact congrArg some (EStateM.Result.ok.inj h).1

/-- An action that ends has taken this course. -/
def Takes (course : Option Course) (act : Exec Unit) (c : Core) : Prop :=
  Ends act (fun _ t => ∃ k, course = some k ∧ k.Leads c.state.pc t.state.pc) (fun _ _ => True) c

namespace Takes

/-- What comes before leaves the counter alone. -/
theorem after {act : Exec α} {next : α → Exec Unit} (h : Writes ps act) (hpc : .pc ∉ ps)
    (hn : ∀ a t, act c = .ok a t → Takes course (next a) t) : Takes course (act >>= next) c := by
  rw [Takes, ends_bind]
  refine Ends.of_forall (fun a t hr => ?_) fun _ _ _ => trivial
  have hsame : t.state.pc = c.state.pc := (h c).ok hr .pc hpc
  rw [← hsame]
  exact hn a t hr

theorem advance (skip : Bool) (c : Core) : Takes (some (.skip skip)) (advance skip) c :=
  ⟨_, rfl, rfl⟩

theorem next (c : Core) : Takes (some .next) (Core.advance false) c := ⟨_, rfl, rfl⟩

theorem then_next {act : Exec Unit} (h : Writes ps act) (hpc : .pc ∉ ps) (c : Core) :
    Takes (some .next) (do act; Core.advance false) c :=
  after h hpc fun _ t _ => next t

theorem change {f : State → State} (hf : ∀ s, (f s).pc = s.pc) (c : Core) :
    Takes (some .next) (change f) c :=
  ⟨_, rfl, congrArg (· + 2) (hf c.state)⟩

theorem stop {f : State → State} (hf : ∀ s, (f s).pc = s.pc) (c : Core) :
    Takes (some .stop) (update f) c := ⟨_, rfl, hf c.state⟩

theorem jumpTo (target : Int) (c : Core) : Takes (some (.jump target)) (jumpTo target) c := by
  rw [Takes, ends_jumpTo]
  split_ifs with hr he
  exact ⟨_, rfl, rfl, hr, he⟩

theorem call (target : Int) (c : Core) : Takes (some (.jump target)) (call target) c :=
  after (checkTarget_writes target) List.not_mem_nil fun _ t _ =>
    after (Writes.read _) List.not_mem_nil fun _ u _ =>
      after (push_writes _) (by decide) fun _ w _ => jumpTo target w

theorem ret (c : Core) : Takes (c.state.top?.map .jump) ret c := by
  refine after pop_writes (by decide) fun target t hr => ?_
  have hpop : Ends (onState State.pop) (fun a _ => c.state.top? = some a) (fun _ _ => True) c := by
    rw [ends_onState]
    exact Ends.of_forall (fun _ _ h => State.pop_top? h) fun _ _ _ => trivial
  rw [hpop.ok hr]
  exact jumpTo target t

theorem onKey (x : Fin 16) (f : Bool → Bool) (c : Core) :
    Takes ((c.state.pressed? (c.state.reg x)).map fun down => .skip (f down))
      (do Core.advance (f (← keyDown x))) c := by
  refine after (keyDown_writes x) List.not_mem_nil fun down t hr => ?_
  rw [keyDown_pressed? hr]
  exact advance (f down) t

end Takes

/-- An instruction that ends has taken its course. -/
theorem execute_takes (d : Instruction) (c : Core) :
    Takes (d.course? c.state) (execute d) c := by
  unfold execute Instruction.course?
  cases d.kind with
  | ret => exact Takes.ret c
  | jump => exact Takes.jumpTo d.nnn c
  | call => exact Takes.call d.nnn c
  | jumpOffset => exact Takes.jumpTo (d.nnn + c.state.reg State.offsetRegister) c
  | skipEqImm | skipNeImm | skipEqReg | skipNeReg => exact Takes.advance _ c
  | skipKeyDown => exact Takes.onKey d.x id c
  | skipKeyUp => exact Takes.onKey d.x not c
  | bcd => exact Takes.then_next (storeDecimal_writes d.x) (by decide) c
  | storeRegisters =>
    exact Takes.then_next ((Writes.read _).bind fun i => storeRun_writes i _) (by decide) c
  | loadRegisters =>
    exact Takes.then_next ((Writes.read _).bind fun i => loadRun_writes i _) (by decide) c
  | draw => exact Takes.then_next (drawSprite_writes d.x d.y d.nibble.val) (by decide) c
  | nop => exact Takes.next c
  | halt | unknown => exact Takes.stop (fun _ => rfl) c
  | _ => exact Takes.change (fun _ => rfl) c

/-- An instruction that ends has moved the counter as its kind says, and what is jumped to lies in
memory and is even. -/
theorem execute_course {word address : Int} {c t : Core}
    (h : execute (Instruction.decode word address) c = .ok () t) :
    let d := Instruction.decode word address
    (∃ course, d.course? c.state = some course ∧ course.Leads c.state.pc t.state.pc) ∧
      (d.kind = .halt → t.state.halted = true) ∧ (d.kind = .unknown → t.state.quit = true) ∧
      (d.kind = .halt ↔ word % 65536 = 0xFFFF) ∧
      (d.kind = .unknown ↔ ∀ e ∈ Instruction.table, e.fits (word % 65536) = false) := by
  intro d
  refine ⟨(execute_takes d c).ok h, ?_, ?_, Instruction.decode_halt_iff,
    Instruction.decode_unknown_iff⟩
  · intro hk
    rw [execute, hk] at h
    obtain ⟨-, rfl⟩ := EStateM.Result.ok.inj h
    rfl
  · intro hk
    rw [execute, hk] at h
    obtain ⟨-, rfl⟩ := EStateM.Result.ok.inj h
    rfl

/-- The key 5 is down, and the register 1 names it. -/
def keyHeld : Core where
  state := { State.initial 7 with keys := (State.initial 7).keys.set 5 true }.setReg 1 5
  bus := Bus.empty

/-- A skip, from a word of seventeen bits. -/
theorem execute_course_keyHeld : ∃ t,
    execute (Instruction.decode 0x1E19E 0) keyHeld = .ok () t ∧ t.state.pc = 0x204 := by
  have hreturns : (match execute (Instruction.decode 0x1E19E 0) keyHeld with
      | .ok _ _ => true
      | .error _ _ => false) = true := by decide +kernel
  cases hr : execute (Instruction.decode 0x1E19E 0) keyHeld with
  | error f t => simp [hr] at hreturns
  | ok _ t =>
    have hskip : (Instruction.decode 0x1E19E 0).course? keyHeld.state = some (.skip true) := by
      decide +kernel
    obtain ⟨⟨course, hcourse, hleads⟩, -⟩ := execute_course hr
    obtain rfl := Option.some.inj (hskip.symm.trans hcourse)
    exact ⟨t, rfl, hleads⟩

end Core

end SpriteVM
