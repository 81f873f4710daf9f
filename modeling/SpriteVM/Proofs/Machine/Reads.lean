import SpriteVM.Proofs.Machine.Outcome
import SpriteVM.Proofs.Machine.Parts
import SpriteVM.Proofs.View

namespace SpriteVM

/-- The parts that instructions of a kind look at, be it to change other parts or to decide how they
end. -/
def Kind.reads : Kind → List Part
  | .ret => [.pc, .sp, .stack]
  | .call => [.pc, .sp]
  | .jump => [.pc]
  | .jumpOffset => [.pc, .v]
  | .skipEqImm | .skipNeImm | .skipEqReg | .skipNeReg => [.v]
  | .skipKeyDown | .skipKeyUp => [.pc, .v, .keys]
  | .random => [.random]
  | .addIndex | .fontAddress | .writeDelay | .writeSound => [.v]
  | .bcd | .storeRegisters => [.v, .i, .bus]
  | .loadRegisters => [.i, .bus]
  | .draw => [.v, .i, .screen, .bus]
  | .readDelay => [.delayTimer]
  | _ => []

theorem Part.Same.symm {p : Part} {c t : Core} (h : p.Same c t) : p.Same t c := by
  cases p <;> exact Eq.symm h

namespace Core

variable {α β : Type} {ps : List Part} {c t : Core} {d : Instruction}

theorem ChangesOnly.symm (h : ChangesOnly ps c t) : ChangesOnly ps t c :=
  fun p hp => (h p hp).symm

/-- On the same bus the states alone tell cores apart. -/
theorem ChangesOnly.onBus (h : ChangesOnly ps c t) (b : Bus) :
    ChangesOnly ps ⟨c.state, b⟩ ⟨t.state, b⟩ := by
  simp_all [changesOnly_iff]

/-- Cores that are the same but for these parts look alike. -/
theorem changesOnly_eq : ChangesOnly ps c = ChangesOnly ps t ↔ ChangesOnly ps c t :=
  eq_iff_related ⟨ChangesOnly.refl ps, ChangesOnly.symm, ChangesOnly.trans⟩

/-- The action does the same whatever is in these parts. -/
abbrev Overlooks (ps : List Part) (act : Exec α) : Prop := Blind (ChangesOnly ps) act

theorem Overlooks.of_changes {act : Exec α} (h : ∀ c t, ChangesOnly ps c t →
    seen (ChangesOnly ps) (act c) = seen (ChangesOnly ps) (act t)) : Overlooks ps act :=
  fun c t hct => h c t (changesOnly_eq.1 hct)

theorem read_overlooks {view : State → α}
    (h : ∀ c t, ChangesOnly ps c t → view t.state = view c.state) :
    Overlooks ps (read view) := by
  apply Overlooks.of_changes
  intro c t hct
  rw [read_apply, read_apply, h c t hct, seen, seen, changesOnly_eq.2 hct]

theorem fail_overlooks {cause : State → Fault}
    (h : ∀ c t, ChangesOnly ps c t → cause t.state = cause c.state) :
    Overlooks ps (fail cause : Exec α) := by
  apply Overlooks.of_changes
  intro c t hct
  rw [fail_apply, fail_apply, h c t hct, seen, seen, changesOnly_eq.2 hct]

theorem update_overlooks {change : State → State}
    (h : ∀ c t, ChangesOnly ps c t →
      ChangesOnly ps ⟨change c.state, c.bus⟩ ⟨change t.state, t.bus⟩) :
    Overlooks ps (update change) := by
  apply Overlooks.of_changes
  intro c t hct
  rw [update_apply, update_apply, seen, seen, changesOnly_eq.2 (h c t hct)]

theorem onBus_overlooks (h : .bus ∉ ps) (act : EStateM Fault Bus α) : Overlooks ps (onBus act) := by
  apply Overlooks.of_changes
  intro c t hct
  have hbus : t.bus = c.bus := hct .bus h
  unfold onBus
  simp only [hbus]
  cases act c.bus with
  | ok a b => simp only [seen, changesOnly_eq.2 (hct.onBus b)]
  | error f b => simp only [seen, changesOnly_eq.2 (hct.onBus b)]

theorem push_overlooks (hpc : .pc ∉ ps) (hsp : .sp ∉ ps) (address : Int) :
    Overlooks ps (onState (State.push address)) := by
  apply Overlooks.of_changes
  intro c t hct
  have hpc' : t.state.pc = c.state.pc := hct .pc hpc
  have hsp' : t.state.sp = c.state.sp := hct .sp hsp
  by_cases hfull : 16 ≤ c.state.sp
  · simp only [onState, State.push, hpc', hsp', if_pos hfull, seen, changesOnly_eq.2 hct]
  · simp only [onState, State.push, hsp', if_neg hfull]
    cases slot? c.state.sp with
    | none => simp only [seen, changesOnly_eq.2 hct]
    | some k =>
      have hafter : ChangesOnly ps
          ⟨{ c.state with stack := c.state.stack.set k address, sp := c.state.sp + 1 }, c.bus⟩
          ⟨{ t.state with stack := t.state.stack.set k address, sp := c.state.sp + 1 }, t.bus⟩ := by
        simp_all [changesOnly_iff]
      simp only [seen, changesOnly_eq.2 hafter]

theorem pop_overlooks (hpc : .pc ∉ ps) (hsp : .sp ∉ ps) (hstack : .stack ∉ ps) :
    Overlooks ps (onState State.pop) := by
  apply Overlooks.of_changes
  intro c t hct
  have hpc' : t.state.pc = c.state.pc := hct .pc hpc
  have hsp' : t.state.sp = c.state.sp := hct .sp hsp
  have hstack' : t.state.stack = c.state.stack := hct .stack hstack
  by_cases hempty : c.state.sp ≤ 0
  · simp only [onState, State.pop, hpc', hsp', if_pos hempty, seen, changesOnly_eq.2 hct]
  · have hafter : ChangesOnly ps ⟨{ c.state with sp := c.state.sp - 1 }, c.bus⟩
        ⟨{ t.state with sp := c.state.sp - 1 }, t.bus⟩ := by
      simp_all [changesOnly_iff]
    simp only [onState, State.pop, hsp', if_neg hempty]
    cases slot? (c.state.sp - 1) with
    | none => simp only [seen, changesOnly_eq.2 hafter]
    | some k => simp only [seen, changesOnly_eq.2 hafter, hstack']

theorem advance_overlooks (skip : Bool) : Overlooks ps (advance skip) := by
  apply update_overlooks
  intro c t hct
  simp_all [changesOnly_iff]

theorem change_overlooks {f : State → State}
    (h : ∀ c t, ChangesOnly ps c t → ChangesOnly ps ⟨f c.state, c.bus⟩ ⟨f t.state, t.bus⟩) :
    Overlooks ps (change f) :=
  (update_overlooks h).bind fun _ => advance_overlooks false

theorem skipIf_overlooks {condition : State → Bool}
    (h : ∀ c t, ChangesOnly ps c t → condition t.state = condition c.state) :
    Overlooks ps (skipIf condition) :=
  (read_overlooks h).bind advance_overlooks

theorem reg_same (h : .v ∉ ps) (hct : ChangesOnly ps c t) (x : Fin 16) :
    t.state.reg x = c.state.reg x := by
  have hv : t.state.v = c.state.v := hct .v h
  rw [State.reg, State.reg, hv]

theorem checkTarget_overlooks (h : .pc ∉ ps) (target : Int) : Overlooks ps (checkTarget target) := by
  unfold checkTarget
  split
  · apply fail_overlooks
    intro c t hct
    rw [hct .pc h]
  · split
    · apply fail_overlooks
      intro c t hct
      rw [hct .pc h]
    · exact Blind.pure ()

theorem jumpTo_overlooks (h : .pc ∉ ps) (target : Int) : Overlooks ps (jumpTo target) := by
  refine (checkTarget_overlooks h target).bind fun _ => ?_
  apply update_overlooks
  intro c t hct
  simp_all [changesOnly_iff]

theorem call_overlooks (hpc : .pc ∉ ps) (hsp : .sp ∉ ps) (target : Int) :
    Overlooks ps (call target) := by
  have hread : Overlooks ps (read (·.pc)) := read_overlooks fun c t hct => hct .pc hpc
  exact (checkTarget_overlooks hpc target).bind fun _ => hread.bind fun pc =>
    (push_overlooks hpc hsp (pc + 2)).bind fun _ => jumpTo_overlooks hpc target

theorem ret_overlooks (hpc : .pc ∉ ps) (hsp : .sp ∉ ps) (hstack : .stack ∉ ps) :
    Overlooks ps ret :=
  (pop_overlooks hpc hsp hstack).bind fun target => jumpTo_overlooks hpc target

theorem keyDown_overlooks (hpc : .pc ∉ ps) (hv : .v ∉ ps) (hkeys : .keys ∉ ps) (x : Fin 16) :
    Overlooks ps (keyDown x) := by
  refine Blind.bind (read_overlooks fun c t hct => reg_same hv hct x) fun key => ?_
  split
  · apply fail_overlooks
    intro c t hct
    rw [hct .pc hpc]
  · cases slot? key with
    | none => exact fail_overlooks fun _ _ _ => rfl
    | some k =>
      apply read_overlooks
      intro c t hct
      have hkeys' : t.state.keys = c.state.keys := hct .keys hkeys
      rw [hkeys']

theorem storeRun_overlooks (hv : .v ∉ ps) (hbus : .bus ∉ ps) (base : Int) (rs : List (Fin 16)) :
    Overlooks ps (storeRun base rs) := by
  induction rs with
  | nil => exact Blind.pure ()
  | cons r rs ih =>
    have hread : Overlooks ps (read (·.reg r)) := read_overlooks fun c t hct => reg_same hv hct r
    exact hread.bind fun value => (onBus_overlooks hbus _).bind fun _ => ih

theorem loadRun_overlooks (hbus : .bus ∉ ps) (base : Int) (rs : List (Fin 16)) :
    Overlooks ps (loadRun base rs) := by
  induction rs with
  | nil => exact Blind.pure ()
  | cons r rs ih =>
    refine (onBus_overlooks hbus _).bind fun value => ?_
    refine Blind.bind (update_overlooks fun c t hct => ?_) fun _ => ih
    simp_all [changesOnly_iff, State.setReg]

theorem storeDecimal_overlooks (hv : .v ∉ ps) (hi : .i ∉ ps) (hbus : .bus ∉ ps) (x : Fin 16) :
    Overlooks ps (storeDecimal x) := by
  have hreg : Overlooks ps (read (·.reg x)) := read_overlooks fun c t hct => reg_same hv hct x
  have hindex : Overlooks ps (read (·.i)) := read_overlooks fun c t hct => hct .i hi
  have hwrite (address data : Int) : Overlooks ps (onBus (Bus.write address data)) :=
    onBus_overlooks hbus _
  exact hreg.bind fun _ => hindex.bind fun _ =>
    (hwrite _ _).bind fun _ => (hwrite _ _).bind fun _ => hwrite _ _

theorem drawRow_overlooks (h : .screen ∉ ps) (left top : Nat) (row : Int) :
    Overlooks ps (drawRow left top row) := by
  apply Overlooks.of_changes
  intro c t hct
  have hscreen : t.state.screen = c.state.screen := hct .screen h
  have hafter (s : Screen) : ChangesOnly ps { c with state := { c.state with screen := s } }
      { t with state := { t.state with screen := s } } := by
    simp_all [changesOnly_iff]
  rw [drawRow_apply, drawRow_apply, hscreen]
  simp only [seen, changesOnly_eq.2 (hafter _)]

theorem drawRows_overlooks (hscreen : .screen ∉ ps) (hbus : .bus ∉ ps) (left top : Nat)
    (address : Int) (n : Nat) : Overlooks ps (drawRows left top address n) := by
  induction n generalizing top address with
  | zero => exact Blind.pure false
  | succ n ih =>
    exact (onBus_overlooks hbus _).bind fun row =>
      (drawRow_overlooks hscreen left top row).bind fun hit =>
        (ih (top + 1) (address + 1)).bind fun further => Blind.pure (hit || further)

theorem drawSprite_overlooks (hv : .v ∉ ps) (hi : .i ∉ ps) (hscreen : .screen ∉ ps)
    (hbus : .bus ∉ ps) (x y : Fin 16) (n : Nat) : Overlooks ps (drawSprite x y n) := by
  -- of the state no more is used than the place, the address and the number of rows
  have hdraw : drawSprite x y n = (do
      let (left, top, address, rows) ← read fun s =>
        let top := (s.reg y % s.screen.height).toNat
        ((s.reg x % s.screen.width).toNat, top, s.i, min n (s.screen.height - top))
      let hit ← drawRows left top address rows
      update fun s =>
        { s.setReg State.flagRegister (if hit then 1 else 0) with draw := true }) := rfl
  rw [hdraw]
  refine Blind.bind (read_overlooks fun c t hct => ?_) fun (left, top, address, rows) => ?_
  · have hi' : t.state.i = c.state.i := hct .i hi
    have hscreen' : t.state.screen = c.state.screen := hct .screen hscreen
    simp only [reg_same hv hct, hi', hscreen']
  · refine (drawRows_overlooks hscreen hbus left top address rows).bind fun hit => ?_
    apply update_overlooks
    intro c t hct
    simp_all [changesOnly_iff, State.setReg]

theorem then_advance_overlooks {act : Exec Unit} (h : Overlooks ps act) :
    Overlooks ps (do act; advance false) :=
  h.bind fun _ => advance_overlooks false

/-- An instruction does the same whatever is in the parts that its kind does not look at. -/
theorem execute_overlooks (d : Instruction) (h : ∀ p ∈ d.kind.reads, p ∉ ps) :
    Overlooks ps (execute d) := by
  unfold execute
  generalize d.kind = kind at h ⊢
  cases kind with
  | ret =>
    obtain ⟨hpc, hsp, hstack⟩ : .pc ∉ ps ∧ .sp ∉ ps ∧ .stack ∉ ps := by simpa [Kind.reads] using h
    exact ret_overlooks hpc hsp hstack
  | jump =>
    have hpc : .pc ∉ ps := by simpa [Kind.reads] using h
    exact jumpTo_overlooks hpc d.nnn
  | call =>
    obtain ⟨hpc, hsp⟩ : .pc ∉ ps ∧ .sp ∉ ps := by simpa [Kind.reads] using h
    exact call_overlooks hpc hsp d.nnn
  | jumpOffset =>
    obtain ⟨hpc, hv⟩ : .pc ∉ ps ∧ .v ∉ ps := by simpa [Kind.reads] using h
    refine Blind.bind (read_overlooks fun c t hct => reg_same hv hct _) fun offset => ?_
    exact jumpTo_overlooks hpc (d.nnn + offset)
  | skipEqImm | skipNeImm | skipEqReg | skipNeReg =>
    have hv : .v ∉ ps := by simpa [Kind.reads] using h
    apply skipIf_overlooks
    intro c t hct
    simp only [reg_same hv hct]
  | skipKeyDown =>
    obtain ⟨hpc, hv, hkeys⟩ : .pc ∉ ps ∧ .v ∉ ps ∧ .keys ∉ ps := by simpa [Kind.reads] using h
    exact (keyDown_overlooks hpc hv hkeys d.x).bind advance_overlooks
  | skipKeyUp =>
    obtain ⟨hpc, hv, hkeys⟩ : .pc ∉ ps ∧ .v ∉ ps ∧ .keys ∉ ps := by simpa [Kind.reads] using h
    exact (keyDown_overlooks hpc hv hkeys d.x).bind fun down => advance_overlooks (!down)
  | bcd =>
    obtain ⟨hv, hi, hbus⟩ : .v ∉ ps ∧ .i ∉ ps ∧ .bus ∉ ps := by simpa [Kind.reads] using h
    exact then_advance_overlooks (storeDecimal_overlooks hv hi hbus d.x)
  | storeRegisters =>
    obtain ⟨hv, hi, hbus⟩ : .v ∉ ps ∧ .i ∉ ps ∧ .bus ∉ ps := by simpa [Kind.reads] using h
    apply then_advance_overlooks
    refine Blind.bind (read_overlooks fun c t hct => hct .i hi) fun base => ?_
    exact storeRun_overlooks hv hbus base _
  | loadRegisters =>
    obtain ⟨hi, hbus⟩ : .i ∉ ps ∧ .bus ∉ ps := by simpa [Kind.reads] using h
    apply then_advance_overlooks
    refine Blind.bind (read_overlooks fun c t hct => hct .i hi) fun base => ?_
    exact loadRun_overlooks hbus base _
  | draw =>
    obtain ⟨hv, hi, hscreen, hbus⟩ : .v ∉ ps ∧ .i ∉ ps ∧ .screen ∉ ps ∧ .bus ∉ ps := by
      simpa [Kind.reads] using h
    exact then_advance_overlooks (drawSprite_overlooks hv hi hscreen hbus d.x d.y d.nibble.val)
  | random =>
    have hrandom : .random ∉ ps := by simpa [Kind.reads] using h
    apply change_overlooks
    intro c t hct
    simp_all [changesOnly_iff, drawRandom, State.nextByte, State.setReg]
  | addIndex | fontAddress | writeDelay | writeSound =>
    have hv : .v ∉ ps := by simpa [Kind.reads] using h
    apply change_overlooks
    intro c t hct
    simp_all [changesOnly_iff, State.reg]
  | readDelay =>
    have hdelay : .delayTimer ∉ ps := by simpa [Kind.reads] using h
    apply change_overlooks
    intro c t hct
    simp_all [changesOnly_iff, State.setReg]
  | clear | setIndex | waitKey =>
    apply change_overlooks
    intro c t hct
    simp_all [changesOnly_iff]
  | loadImm | addImm | copy | or | and | xor | add | sub | shiftRight | reverseSub | shiftLeft =>
    apply change_overlooks
    intro c t hct
    simp_all [changesOnly_iff, State.setReg, State.setFlagged, State.reg]
  | nop => exact advance_overlooks false
  | halt | unknown =>
    apply update_overlooks
    intro c t hct
    simp_all [changesOnly_iff]

/-- Related cores are the same in all that a cycle looks at before there is an instruction, and they
are still related on another bus that they have in common. -/
structure Unseen (R : Core → Core → Prop) : Prop where
  pc : ∀ c t, R c t → t.state.pc = c.state.pc
  blocking : ∀ c t, R c t → t.state.blocking = c.state.blocking
  halted : ∀ c t, R c t → t.state.halted = c.state.halted
  quit : ∀ c t, R c t → t.state.quit = c.state.quit
  bus : ∀ c t, R c t → t.bus = c.bus
  onBus : ∀ c t, R c t → ∀ b, R ⟨c.state, b⟩ ⟨t.state, b⟩

/-- The parts that a cycle looks at before there is an instruction. -/
def cycleReads : List Part := [.pc, .blocking, .halted, .quit, .bus]

theorem ChangesOnly.unseen (hps : ∀ p ∈ cycleReads, p ∉ ps) : Unseen (ChangesOnly ps) where
  pc c t h := h .pc (hps _ (by decide))
  blocking c t h := h .blocking (hps _ (by decide))
  halted c t h := h .halted (hps _ (by decide))
  quit c t h := h .quit (hps _ (by decide))
  bus c t h := h .bus (hps _ (by decide))
  onBus c t h b := h.onBus b

end Core

namespace Machine

variable {ps : List Part} {m t u : Machine}

/-- The machines are the same but for these parts. -/
structure AlikeBut (ps : List Part) (m t : Machine) : Prop where
  core : Core.ChangesOnly ps m.core t.core
  seed : t.seed = m.seed
  cycles : t.cycles = m.cycles
  fetched : t.fetched = m.fetched
  trace : t.trace = m.trace

namespace AlikeBut

theorem refl (ps : List Part) (m : Machine) : AlikeBut ps m m :=
  ⟨Core.ChangesOnly.refl ps m.core, rfl, rfl, rfl, rfl⟩

theorem symm (h : AlikeBut ps m t) : AlikeBut ps t m :=
  ⟨h.core.symm, h.seed.symm, h.cycles.symm, h.fetched.symm, h.trace.symm⟩

theorem trans (h : AlikeBut ps m t) (h' : AlikeBut ps t u) : AlikeBut ps m u :=
  ⟨h.core.trans h'.core, h'.seed.trans h.seed, h'.cycles.trans h.cycles,
    h'.fetched.trans h.fetched, h'.trace.trans h.trace⟩

end AlikeBut

theorem alikeBut_eq : AlikeBut ps m = AlikeBut ps t ↔ AlikeBut ps m t :=
  eq_iff_related ⟨AlikeBut.refl ps, AlikeBut.symm, AlikeBut.trans⟩

section Host

variable {α : Type}

theorem inspect_alike {view : State → α}
    (h : ∀ m t, AlikeBut ps m t → view t.state = view m.state) :
    Blind (AlikeBut ps) (inspect view) := by
  intro m t hmt
  have hseen : inspect view t = .ok (view m.state) t := by
    rw [← h m t (alikeBut_eq.1 hmt)]
    rfl
  rw [hseen]
  exact congrArg (Prod.mk _) hmt

theorem update_alike {change : State → State}
    (h : ∀ c t, Core.ChangesOnly ps c t →
      Core.ChangesOnly ps ⟨change c.state, c.bus⟩ ⟨change t.state, t.bus⟩) :
    Blind (AlikeBut ps) (update change) := by
  intro m t hmt
  have hmt := alikeBut_eq.1 hmt
  have hafter : AlikeBut ps { m with core := ⟨change m.state, m.bus⟩ }
      { t with core := ⟨change t.state, t.bus⟩ } :=
    ⟨h m.core t.core hmt.core, hmt.seed, hmt.cycles, hmt.fetched, hmt.trace⟩
  exact congrArg (Prod.mk _) (alikeBut_eq.2 hafter)

/-- The parts that are looked at to end a wait. -/
def waitReads : List Part := [.blocking, .keys, .keyTarget]

theorem resolveKey_alike (hps : ∀ p ∈ waitReads, p ∉ ps) : Blind (AlikeBut ps) resolveKey := by
  refine Blind.bind (inspect_alike fun m t h => h.core .blocking (hps _ (by decide))) fun b => ?_
  split
  · exact Blind.pure false
  · refine Blind.bind (inspect_alike fun m t h => ?_) fun key => ?_
    · have hkeys : t.state.keys = m.state.keys := h.core .keys (hps _ (by decide))
      rw [State.lowestKey?, State.lowestKey?, hkeys]
    · cases key with
      | none => exact Blind.pure false
      | some key =>
        have htarget : Blind (AlikeBut ps) (inspect (·.keyTarget)) :=
          inspect_alike fun m t h => h.core .keyTarget (hps _ (by decide))
        refine Blind.bind htarget fun target => ?_
        cases slot? target with
        | none => exact Blind.throw _
        | some x =>
          refine Blind.bind (update_alike fun c t h => ?_) fun _ => Blind.pure true
          simp_all [Core.changesOnly_iff, State.setReg]

end Host

section Like

variable {R : Core → Core → Prop}

/-- The machines have cores that `R` relates, and are the same otherwise. -/
structure Like (R : Core → Core → Prop) (m t : Machine) : Prop where
  core : R m.core t.core
  seed : t.seed = m.seed
  cycles : t.cycles = m.cycles
  fetched : t.fetched = m.fetched
  trace : t.trace = m.trace

/-- A cycle comes to the same on machines with related cores if its instruction does. -/
theorem step_like (hR : Core.Unseen R) (h : Like R m t)
    (hd : ∀ d b, m.Active → m.state.Fetchable → readInstruction m.state.pc m.cleared.bus = .ok d b →
      Related R (Core.execute d ⟨m.state, b⟩) (Core.execute d ⟨t.state, b⟩)) :
    Related (Like R) m.step t.step := by
  have hpc : t.state.pc = m.state.pc := hR.pc _ _ h.core
  have hb : t.state.blocking = m.state.blocking := hR.blocking _ _ h.core
  have hh : t.state.halted = m.state.halted := hR.halted _ _ h.core
  have hq : t.state.quit = m.state.quit := hR.quit _ _ h.core
  have hterm : t.state.terminal = m.state.terminal := by rw [State.terminal, State.terminal, hh, hq]
  have hactive (ha : m.Active) : t.Active := ⟨hterm.trans ha.1, hb.trans ha.2⟩
  have hfetch : t.state.Fetchable ↔ m.state.Fetchable := by
    rw [State.Fetchable, State.Fetchable, hpc]
  have hcleared : t.cleared.bus = m.cleared.bus :=
    congrArg (fun b : Bus => ({ b with log := [] } : Bus)) (hR.bus _ _ h.core)
  have hread : readInstruction t.state.pc t.cleared.bus = readInstruction m.state.pc m.cleared.bus := by
    rw [hpc, hcleared]
  have hreport {c c' : Core} (hc : R c c') (d : Instruction) : t.report d c' = m.report d c := by
    rw [report, report, h.cycles, hR.bus c c' hc]
  have hexecuted {c c' : Core} (hc : R c c') (d : Instruction) (trace : Trace) :
      Like R { m.executed c with fetched := some d, trace := trace }
        { t.executed c' with fetched := some d, trace := trace } := by
    have hcore : R ⟨c.state, { c.bus with log := [] }⟩ ⟨c'.state, { c'.bus with log := [] }⟩ := by
      rw [hR.bus c c' hc]
      exact hR.onBus c c' hc _
    exact ⟨hcore, h.seed, congrArg (· + 1) h.cycles, rfl, rfl⟩
  -- whatever the one cycle came to, the other comes to the same with the core of its own
  have ho := step_outcome m
  generalize m.step = r at ho ⊢
  cases ho with
  | stopped ht =>
    rw [step_terminal (hterm.trans ht), hh]
    exact .error h
  | waiting ht hblock =>
    rw [step_blocking (hterm.trans ht) (hb.trans hblock), h.cycles]
    exact .ok h
  | counter ha hp =>
    rw [(CycleOutcome.counter (hactive ha) (mt hfetch.1 hp)).step_eq, hpc]
    have hcore : R ⟨m.state, m.cleared.bus⟩ ⟨t.state, t.cleared.bus⟩ := by
      rw [hcleared]
      exact hR.onBus _ _ h.core _
    have hafter : Like R m.cleared t.cleared := ⟨hcore, h.seed, h.cycles, h.fetched, h.trace⟩
    exact .error hafter
  | @unreadable ha hp f b hr =>
    rw [(CycleOutcome.unreadable (hactive ha) (hfetch.2 hp) (hread.trans hr)).step_eq]
    exact .error ⟨hR.onBus _ _ h.core b, h.seed, h.cycles, h.fetched, h.trace⟩
  | @failed ha hp d b f c hr he =>
    have hrel := hd d b ha hp hr
    rw [he] at hrel
    obtain ⟨c', he', hc⟩ := hrel.of_error
    rw [(CycleOutcome.failed (hactive ha) (hfetch.2 hp) (hread.trans hr) he').step_eq]
    exact .error ⟨hc, h.seed, h.cycles, rfl, h.trace⟩
  | @hookFailed ha hp d b c f trace hr he hn =>
    have hrel := hd d b ha hp hr
    rw [he] at hrel
    obtain ⟨c', he', hc⟩ := hrel.of_ok
    rw [← hreport hc, ← h.trace] at hn
    rw [(CycleOutcome.hookFailed (hactive ha) (hfetch.2 hp) (hread.trans hr) he' hn).step_eq]
    exact .error (hexecuted hc d trace)
  | @done ha hp d b c trace hr he hn =>
    have hrel := hd d b ha hp hr
    rw [he] at hrel
    obtain ⟨c', he', hc⟩ := hrel.of_ok
    rw [← hreport hc, ← h.trace] at hn
    rw [(CycleOutcome.done (hactive ha) (hfetch.2 hp) (hread.trans hr) he' hn).step_eq, hreport hc]
    exact .ok (hexecuted hc d trace)

end Like

/-- A cycle does the same on machines that differ in parts that neither it nor its instruction looks
at. -/
theorem step_alike (hps : ∀ p ∈ Core.cycleReads, p ∉ ps) (h : AlikeBut ps m t)
    (hd : ∀ d b, m.Active → m.state.Fetchable → readInstruction m.state.pc m.cleared.bus = .ok d b →
      ∀ p ∈ d.kind.reads, p ∉ ps) :
    seen (AlikeBut ps) m.step = seen (AlikeBut ps) t.step := by
  have hlike : Like (Core.ChangesOnly ps) m t := ⟨h.core, h.seed, h.cycles, h.fetched, h.trace⟩
  have hrelated : Related (Like (Core.ChangesOnly ps)) m.step t.step := by
    refine step_like (Core.ChangesOnly.unseen hps) hlike fun d b ha hp hr => ?_
    have hbefore : Core.ChangesOnly ps ⟨m.state, b⟩ = Core.ChangesOnly ps ⟨t.state, b⟩ :=
      Core.changesOnly_eq.2 (h.core.onBus b)
    have hexecute := Core.execute_overlooks d (hd d b ha hp hr) _ _ hbefore
    exact (seen_eq_iff.1 hexecute).imp fun _ _ => Core.changesOnly_eq.1
  refine seen_eq_iff.2 (hrelated.imp fun u w hu => alikeBut_eq.2 ?_)
  exact ⟨hu.core, hu.seed, hu.cycles, hu.fetched, hu.trace⟩

end Machine

end SpriteVM
