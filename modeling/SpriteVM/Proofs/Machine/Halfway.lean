import SpriteVM.Proofs.Machine.Family
import SpriteVM.Proofs.Machine.Report
import SpriteVM.Proofs.Machine.SpriteCells
import SpriteVM.Proofs.Machine.Transfer

namespace SpriteVM

/-- The parts that an instruction of a kind may have changed when it fails. -/
def Kind.spoils : Kind → List Part
  | .ret => [.sp]
  | .bcd | .storeRegisters => [.bus]
  | .loadRegisters => [.v, .bus]
  | .draw => [.screen, .bus]
  | _ => []

theorem State.push_error {s t : State} {address : Int} {f : Fault}
    (h : push address s = .error f t) : t = s := by
  unfold push at h
  split at h
  · exact (EStateM.Result.error.inj h).2.symm
  · split at h
    · exact (EStateM.Result.error.inj h).2.symm
    · contradiction

theorem Kind.spoils_subset (k : Kind) : k.spoils ⊆ [.sp, .v, .screen, .bus] := by
  cases k <;> simp [spoils]

theorem Kind.mem_spoils {k : Kind} : (.sp ∈ k.spoils → k = .ret) ∧
    (.v ∈ k.spoils → k = .loadRegisters) ∧ (.screen ∈ k.spoils → k = .draw) := by
  cases k <;> simp [spoils]

namespace Core

variable {α β : Type} {ps : List Part} {c : Core} {L : Layout} {d : Instruction}

/-- An action that fails has changed these parts at most. -/
def Spoils (ps : List Part) (act : Exec α) : Prop :=
  ∀ c, Ends act (fun _ _ => True) (fun _ t => ChangesOnly ps c t) c

theorem Writes.spoils {act : Exec α} (h : Writes ps act) : Spoils ps act :=
  fun c => (h c).imp (fun _ _ _ => trivial) fun _ _ ht => ht

namespace Spoils

variable {act : Exec α}

theorem update (f : State → State) : Spoils ps (update f) := fun _ => trivial

theorem bind {next : α → Exec β} (h : Writes ps act) (hn : ∀ a, Spoils ps (next a)) :
    Spoils ps (act >>= next) := by
  intro c
  rw [ends_bind]
  refine (h c).imp (fun a t ht => ?_) fun _ _ ht => ht
  exact (hn a t).imp (fun _ _ _ => trivial) fun _ _ hu => ht.trans hu

/-- What comes last does not fail. -/
theorem bind_update (h : Spoils ps act) (f : α → State → State) :
    Spoils ps (do let a ← act; Core.update (f a)) := by
  intro c
  rw [ends_bind]
  exact (h c).imp (fun _ _ _ => trivial) fun _ _ ht => ht

theorem then_advance {act : Exec Unit} (h : Spoils ps act) : Spoils ps (do act; advance false) :=
  h.bind_update _

theorem change (f : State → State) : Spoils ps (change f) := (update f).then_advance

theorem jumpTo (target : Int) : Spoils ps (jumpTo target) :=
  (checkTarget_writes target).spoils.bind_update _

theorem call (target : Int) : Spoils ps (call target) := by
  intro c
  rw [Core.call, ends_bind, ends_checkTarget]
  split_ifs with hin heven
  · rw [ends_bind, ends_read, ends_bind, ends_onState]
    refine Ends.of_forall (fun _ s _ => ?_) fun f s hs => ?_
    · -- the target was found to be good before
      rw [ends_jumpTo, if_pos hin, if_pos heven]
      trivial
    · rw [State.push_error hs]
      exact ChangesOnly.refl ps c
  · exact ChangesOnly.refl ps c
  · exact ChangesOnly.refl ps c

/-- An instruction that fails has changed what the list of its kind names, and nothing else. -/
theorem execute (d : Instruction) : Spoils d.kind.spoils (execute d) := by
  unfold Core.execute
  cases d.kind with
  | ret => exact Spoils.bind pop_writes jumpTo
  | jump => exact jumpTo d.nnn
  | call => exact call d.nnn
  | jumpOffset => exact Spoils.bind (Writes.read _) fun offset => jumpTo (d.nnn + offset)
  | skipEqImm | skipNeImm | skipEqReg | skipNeReg => exact (Writes.read _).spoils.bind_update _
  | bcd => exact (storeDecimal_writes d.x).spoils.then_advance
  | storeRegisters =>
    have hstore : Writes [.bus] (storeRegisters d.x) :=
      (Writes.read _).bind fun i => storeRun_writes i _
    exact hstore.spoils.then_advance
  | loadRegisters =>
    have hload : Writes [.v, .bus] (loadRegisters d.x) :=
      (Writes.read _).bind fun i => loadRun_writes i _
    exact hload.spoils.then_advance
  | draw =>
    have hrows : Spoils [.screen, .bus] (drawSprite d.x d.y d.nibble.val) :=
      Spoils.bind (Writes.read _) fun s => (drawRows_writes _ _ _ _).spoils.bind_update _
    exact hrows.then_advance
  | skipKeyDown | skipKeyUp => exact (keyDown_writes d.x).spoils.bind_update _
  | nop | halt | unknown => exact update _
  | _ => exact change _

end Spoils

/-- A failure of an action with the advance after it is one of the action. -/
theorem ends_then_advance {act : Exec Unit} {Q : Unit → Core → Prop} {E : Fault → Core → Prop}
    (h : Ends act Q E c) : Ends (do act; advance false) (fun _ _ => True) E c := by
  rw [ends_bind]
  exact h.imp (fun _ _ _ => trivial) fun _ _ hf => hf

theorem drawSprite_fails_in (hb : c.bus.layout.OneMemory) (hi : 0 ≤ c.state.i) (x y : Fin 16)
    (n : Nat) :
    let left := (c.state.reg x % c.state.screen.width).toNat
    let top := (c.state.reg y % c.state.screen.height).toNat
    let rows := min n (c.state.screen.height - top)
    Ends (drawSprite x y n) (fun _ _ => True)
      (fun _ t => t.bus.byte = c.bus.byte ∧
        c.state.screen.Flips (spriteCell c.bus.byte c.state.i left top rows) t.state.screen) c := by
  intro left top rows
  have hpos := c.state.screen.height_pos
  have htop : top < c.state.screen.height := by
    have hlt : c.state.reg y % c.state.screen.height < c.state.screen.height :=
      Int.emod_lt_of_pos _ (by omega)
    have hnonneg : 0 ≤ c.state.reg y % c.state.screen.height := Int.emod_nonneg _ (by omega)
    omega
  have hin : top + rows ≤ c.state.screen.height := by omega
  rw [drawSprite, ends_bind, ends_read, ends_bind]
  exact ((drawRows_byte left top c.state.i rows c).and (drawRows_flips hb hi hin)).imp
    (fun _ _ _ => trivial) fun _ _ h => h

/-- What an instruction stores is written as far as memory goes. -/
theorem execute_stores (hL : L.OneMemory) (d : Instruction) (hc : c.Ready L) :
    Ends (execute d) (fun _ _ => True)
      (fun _ t => Written c.state.i (d.stored c.state) c.bus.byte t.bus.byte) c := by
  have hb : c.bus.layout.OneMemory := hc.layout ▸ hL
  have hi := hc.state.index
  have hsame {t : Core} (ht : t.bus.byte = c.bus.byte) : Written c.state.i [] c.bus.byte t.bus.byte :=
    ht ▸ Written.nil _ _
  by_cases hbus : .bus ∈ d.kind.spoils
  · unfold execute Instruction.stored
    cases hk : d.kind with
    | bcd => exact ends_then_advance (storeDecimal_writesFrom hb hi.1 (hc.state.reg d.x))
    | storeRegisters =>
      exact ends_then_advance (storeRegisters_writesFrom hb hi.1 hc.state.reg d.x)
    | loadRegisters =>
      have hload := loadRegisters_loads hb hi.1 d.x
      exact (ends_then_advance hload).imp (fun _ _ h => h) fun _ _ h => hsame h.1
    | draw =>
      have hdraw := drawSprite_fails_in hb hi.1 d.x d.y d.nibble.val
      exact (ends_then_advance hdraw).imp (fun _ _ h => h) fun _ _ h => hsame h.1
    | _ => simp [hk, Kind.spoils] at hbus
  · have hnone : d.stored c.state = [] := by
      unfold Instruction.stored
      cases hk : d.kind <;> simp_all [Kind.spoils]
    refine (Spoils.execute d c).imp (fun _ _ h => h) fun _ t ht => ?_
    have ht : t.bus = c.bus := ht .bus hbus
    exact hnone ▸ hsame (congrArg Bus.byte ht)

/-- What an instruction that failed left behind: what it stores, loads or draws is there as far as
memory goes. -/
structure Halfway (d : Instruction) (c t : Core) : Prop where
  frame : ChangesOnly d.kind.spoils c t
  memory : Written c.state.i (d.stored c.state) c.bus.byte t.bus.byte
  registers : d.kind = .loadRegisters → ∀ r : Fin 16, t.state.reg r =
    if r ≤ d.x ∧ c.state.i + r.val ≤ 0xFFF then c.bus.byte (c.state.i + r.val) else c.state.reg r
  picture : d.kind = .draw →
    let left := (c.state.reg d.x % c.state.screen.width).toNat
    let top := (c.state.reg d.y % c.state.screen.height).toNat
    c.state.screen.Flips (spriteCell c.bus.byte c.state.i left top
      (min d.nibble.val (c.state.screen.height - top))) t.state.screen

theorem execute_halfway (hL : L.OneMemory) (d : Instruction) (hc : c.Ready L) :
    Ends (execute d) (fun _ _ => True) (fun _ t => Halfway d c t) c := by
  have hb : c.bus.layout.OneMemory := hc.layout ▸ hL
  have hi := hc.state.index
  refine Ends.of_forall (fun _ _ _ => trivial) fun f t h => ?_
  have hframe := (Spoils.execute d c).error h
  have hmemory := (execute_stores hL d hc).error h
  refine ⟨hframe, hmemory, fun hk r => ?_, fun hk => ?_⟩
  · have hexec : execute d = (do loadRegisters d.x; advance false) := by rw [execute, hk]
    rw [hexec] at h
    exact ((ends_then_advance (loadRegisters_loads hb hi.1 d.x)).error h).2 r
  · have hexec : execute d = (do drawSprite d.x d.y d.nibble.val; advance false) := by
      rw [execute, hk]
    rw [hexec] at h
    exact ((ends_then_advance (drawSprite_fails_in hb hi.1 d.x d.y d.nibble.val)).error h).2

section Halfway

variable {t : Core} {f : Fault} (h : Halfway d c t) (hf : InstructionFault d c.state f)

include h

theorem Halfway.state_eq :
    t.state = { c.state with sp := t.state.sp, v := t.state.v, screen := t.state.screen } := by
  have hframe := changesOnly_iff.1 (h.frame.mono d.kind.spoils_subset)
  cases hs : t.state
  simp_all

/-- No other instruction writes to memory. -/
theorem Halfway.byte_eq (hk : d.kind ≠ .bcd ∧ d.kind ≠ .storeRegisters) :
    t.bus.byte = c.bus.byte := by
  have hnone : d.stored c.state = [] := by
    unfold Instruction.stored
    split
    · exact absurd ‹_› hk.1
    · exact absurd ‹_› hk.2
    · rfl
  have hmemory := h.memory
  rw [hnone] at hmemory
  funext a
  exact hmemory.outside a (by simp only [List.length_nil]; omega)

include hf

theorem Halfway.stored (hk : d.kind = .bcd ∨ d.kind = .storeRegisters) :
    (∀ k : Nat, c.state.i + k ≤ 0xFFF →
      (d.stored c.state)[k]? = some (t.bus.byte (c.state.i + k))) ∧
      ∀ a, a < c.state.i ∨ 0xFFF < a → t.bus.byte a = c.bus.byte a := by
  apply h.memory.cut
  obtain hk | hk := hk
  · obtain ⟨hfar, -⟩ := (InstructionFault.decimal_iff hk).1 hf
    rw [Instruction.stored, hk]
    simp only [List.length_cons, List.length_nil]
    omega
  · obtain ⟨hfar, -⟩ := (InstructionFault.transfer_iff (.inl hk)).1 hf
    rw [Instruction.stored, hk]
    simp only [List.length_map, length_upTo]
    omega

theorem Halfway.loaded (hk : d.kind = .loadRegisters) (r : Fin 16) : t.state.reg r =
    if c.state.i + r.val ≤ 0xFFF then c.bus.byte (c.state.i + r.val) else c.state.reg r := by
  obtain ⟨hfar, -⟩ := (InstructionFault.transfer_iff (.inr hk)).1 hf
  have hrange : r ≤ d.x ∧ c.state.i + r.val ≤ 0xFFF ↔ c.state.i + r.val ≤ 0xFFF := by
    rw [Fin.le_def]
    omega
  rw [h.registers hk r, if_congr hrange rfl rfl]

theorem Halfway.drawn (hk : d.kind = .draw) :
    let screen := c.state.screen
    let left := (c.state.reg d.x % screen.width).toNat
    let top := (c.state.reg d.y % screen.height).toNat
    t.state.v = c.state.v ∧ t.state.screen.width = screen.width ∧
      t.state.screen.height = screen.height ∧
      ∀ x y, x < screen.width → y < screen.height → t.state.screen.lit x y = (screen.lit x y ^^
        (decide (top ≤ y ∧ c.state.i + (y - top : Nat) ≤ 0xFFF) &&
          Screen.covers left (c.bus.byte (c.state.i + (y - top : Nat))) x)) := by
  intro screen left top
  obtain ⟨hn, hfar, -⟩ := (InstructionFault.sprite_iff hk).1 hf
  have hflips := h.picture hk
  have hv : t.state.v = c.state.v := h.frame .v (by simp [hk, Kind.spoils])
  refine ⟨hv, hflips.width, hflips.height, fun x y hx hy => ?_⟩
  rw [hflips.lit x y hx, spriteCell]
  -- below the last row that memory has there is none that the instruction does not draw
  have hrange : top ≤ y ∧ y < top + min d.nibble.val (screen.height - top) ∧
      c.state.i + (y - top : Nat) ≤ 0xFFF ↔ top ≤ y ∧ c.state.i + (y - top : Nat) ≤ 0xFFF := by
    have hpos := screen.height_pos
    have htop : (top : Int) = c.state.reg d.y % screen.height :=
      Int.toNat_of_nonneg (Int.emod_nonneg _ (by omega))
    rw [← htop] at hfar
    omega
  rw [decide_eq_decide.2 hrange]

end Halfway

end Core

namespace Machine

variable {m t : Machine} {L : Layout} {f : Fault}

/-- A hook does not fail as a machine does. -/
theorem notify_family {s : Snapshot} {trace after : Trace}
    (h : Trace.notify s trace = .error f after) :
    f.kind.isA .machine = false ∧ f.kind.isA .machineStopped = false := by
  obtain ⟨-, message, rfl⟩ := (Trace.notify_told s trace).error h
  exact ⟨rfl, rfl⟩

/-- A machine fault of a cycle comes before there is an instruction, or an instruction ran into it. -/
theorem step_fails_halfway (hL : L.OneMemory) (hm : m.Sound L) (hs : m.step = .error f t)
    (hf : f.kind.isA .machine = true ∨ f.kind.isA .machineStopped = true) :
    t.cycles = m.cycles ∧
      ((t.state = m.state ∧ t.bus.byte = m.bus.byte ∧ ∀ d, ¬ m.Fetching d) ∨
        ∃ d b, m.Fetching d ∧ b.byte = m.bus.byte ∧ InstructionFault d m.state f ∧
          Core.Halfway d ⟨m.state, b⟩ t.core) := by
  have hb : m.bus.layout.OneMemory := hm.layout ▸ hL
  have ho := step_outcome m
  rw [hs] at ho
  cases ho with
  | stopped ht =>
    refine ⟨rfl, .inl ⟨rfl, rfl, fun d hd => ?_⟩⟩
    rw [hd.1.1] at ht
    contradiction
  | counter ha hp => exact ⟨rfl, .inl ⟨rfl, rfl, fun d hd => hp hd.2.1⟩⟩
  | unreadable ha hp hr => exact ((readInstruction_next hb hp).error hr).elim
  | @failed ha hp d b _ c hr he =>
    have hlayout : b.layout = L := (readInstruction_explained hr).layout.trans hm.layout
    have hready : Core.Ready L ⟨m.state, b⟩ := ⟨⟨hm.state, hp.1.2⟩, hlayout⟩
    exact ⟨rfl, .inr ⟨d, b, ⟨ha, hp, b, hr⟩, (readInstruction_log hr).2,
      (Core.execute_cause hL d hready).error he, (Core.execute_halfway hL d hready).error he⟩⟩
  | hookFailed _ _ _ _ hn =>
    obtain ⟨hmachine, hstopped⟩ := notify_family hn
    simp [hmachine, hstopped] at hf

/-- What a cycle that fails leaves of a machine `m`: all of it but the stack pointer, the registers,
the picture and the memory, and these change for one instruction each, or two. -/
structure FaultFrame (m t : Machine) : Prop where
  state : t.state = { m.state with sp := t.state.sp, v := t.state.v, screen := t.state.screen }
  cycles : t.cycles = m.cycles
  pointer : (∀ d, m.Fetching d → d.kind ≠ .ret) → t.state.sp = m.state.sp
  registers : (∀ d, m.Fetching d → d.kind ≠ .loadRegisters) → t.state.v = m.state.v
  memory : (∀ d, m.Fetching d → d.kind ≠ .bcd ∧ d.kind ≠ .storeRegisters) → t.bus.byte = m.bus.byte
  picture : (∀ d, m.Fetching d → d.kind ≠ .draw) → t.state.screen = m.state.screen
  /-- The registers are loaded whose bytes stand before the end of the memory. -/
  loaded : ∀ d, m.Fetching d → d.kind = .loadRegisters → ∀ r : Fin 16, t.state.reg r =
    if m.state.i + r.val ≤ 0xFFF then m.bus.byte (m.state.i + r.val) else m.state.reg r
  /-- The bytes are stored that stand before the end of the memory. -/
  stored : ∀ d, m.Fetching d → d.kind = .bcd ∨ d.kind = .storeRegisters →
    (∀ k : Nat, m.state.i + k ≤ 0xFFF →
      (d.stored m.state)[k]? = some (t.bus.byte (m.state.i + k))) ∧
    ∀ a, a < m.state.i ∨ 0xFFF < a → t.bus.byte a = m.bus.byte a
  /-- The rows are drawn that stand before the end of the memory, and the flag register is as it
  was. -/
  drawn : ∀ d, m.Fetching d → d.kind = .draw →
    let screen := m.state.screen
    let left := (m.state.reg d.x % screen.width).toNat
    let top := (m.state.reg d.y % screen.height).toNat
    t.state.v = m.state.v ∧ t.state.screen.width = screen.width ∧
      t.state.screen.height = screen.height ∧
      ∀ x y, x < screen.width → y < screen.height → t.state.screen.lit x y = (screen.lit x y ^^
        (decide (top ≤ y ∧ m.state.i + (y - top : Nat) ≤ 0xFFF) &&
          Screen.covers left (m.bus.byte (m.state.i + (y - top : Nat))) x))

/-- A cycle that did not come to an instruction changed nothing of this. -/
theorem FaultFrame.of_same (hs : t.state = m.state) (hbyte : t.bus.byte = m.bus.byte)
    (hcycles : t.cycles = m.cycles) (hn : ∀ d, ¬ m.Fetching d) : m.FaultFrame t where
  state := by rw [hs]
  cycles := hcycles
  pointer := fun _ => by rw [hs]
  registers := fun _ => by rw [hs]
  memory := fun _ => hbyte
  picture := fun _ => by rw [hs]
  loaded := fun d hd => absurd hd (hn d)
  stored := fun d hd => absurd hd (hn d)
  drawn := fun d hd => absurd hd (hn d)

theorem FaultFrame.of_halfway {d : Instruction} {b : Bus} (hb : m.bus.layout.OneMemory)
    (hd : m.Fetching d) (hbyte : b.byte = m.bus.byte) (hf : InstructionFault d m.state f)
    (h : Core.Halfway d ⟨m.state, b⟩ t.core) (hcycles : t.cycles = m.cycles) : m.FaultFrame t := by
  have hunique {e : Instruction} (he : m.Fetching e) : e = d :=
    (he.eq_next hb).trans (hd.eq_next hb).symm
  obtain ⟨hsp, hv, hscreen⟩ := @Kind.mem_spoils d.kind
  refine
    { state := h.state_eq
      cycles := hcycles
      pointer := fun hn => h.frame .sp (mt hsp (hn d hd))
      registers := fun hn => h.frame .v (mt hv (hn d hd))
      memory := fun hn => (h.byte_eq (hn d hd)).trans hbyte
      picture := fun hn => h.frame .screen (mt hscreen (hn d hd))
      loaded := fun e he hk => ?_
      stored := fun e he hk => ?_
      drawn := fun e he hk => ?_ }
  all_goals
    obtain rfl := hunique he
    rw [← hbyte]
  · exact h.loaded hf hk
  · exact h.stored hf hk
  · exact h.drawn hf hk

end Machine

/-- A cycle that fails as a machine does has changed nothing, unless a load, a store or a sprite ran out
of the memory; then it did what memory has room for. -/
theorem session_fault_frame {b : Bus} {seed : Int} {m₀ : Machine} (hb : b.layout.OneMemory)
    (h₀ : Machine.create b seed = .ok m₀) (actions : List HostAction) {f : Fault} {t : Machine}
    (hs : (session actions m₀).step = .error f t)
    (hf : f.kind.isA .machine = true ∨ f.kind.isA .machineStopped = true) :
    (session actions m₀).FaultFrame t := by
  have hsound : (session actions m₀).Sound b.layout :=
    session_keeps (fun a _ => a.act_keeps hb.memoryOnly) (Machine.create_sound h₀)
  obtain ⟨hcycles, ⟨hstate, hbyte, hn⟩ | ⟨d, b', hd, hbyte, hcause, hhalf⟩⟩ :=
    Machine.step_fails_halfway hb hsound hs hf
  · exact .of_same hstate hbyte hcycles hn
  · exact .of_halfway (hsound.layout ▸ hb) hd hbyte hcause hhalf hcycles

/-- Up to a load of four registers from the last two bytes of the memory. -/
def halfLoad : List HostAction :=
  [.load [0xAF, 0xFE, 0xF3, 0x65], .busWrite 0xFFE 7, .busWrite 0xFFF 9, .step]

theorem session_fault_frame_halfLoad : Bus.blank.layout.OneMemory ∧
    ∃ m₀, Machine.create Bus.blank 7 = .ok m₀ ∧
      let m := session halfLoad m₀
      ∃ t, m.step = .error (.unmapped 0x1000) t ∧ (Fault.unmapped 0x1000).kind.isA .machine = true ∧
        t.state.reg 0 = 7 ∧ t.state.reg 1 = 9 ∧ t.state.reg 2 = m.state.reg 2 ∧
        t.state.pc = m.state.pc ∧ t.bus.byte = m.bus.byte := by
  obtain ⟨m₀, h₀, hrun⟩ := Machine.exists_created Bus.blank 7 (fun m₀ =>
    let m := session halfLoad m₀
    decide (m.state.terminal = false ∧ m.state.blocking = false ∧ m.state.pc = 0x202 ∧
      m.next.kind = .loadRegisters ∧ m.next.x = 3 ∧ m.state.i = 0xFFE ∧ m.bus.byte 0xFFE = 7 ∧
      m.bus.byte 0xFFF = 9 ∧ m.trace.hooks = [])) (by decide +kernel)
  obtain ⟨hterm, hblocking, hpc, hk, hx, hi, hlow, hhigh, hhooks⟩ := of_decide_eq_true hrun
  have hsound : (session halfLoad m₀).Sound Bus.blank.layout :=
    session_keeps (fun a _ => a.act_keeps Bus.blank_oneMemory.memoryOnly) (Machine.create_sound h₀)
  have hone : (session halfLoad m₀).bus.layout.OneMemory := hsound.layout ▸ Bus.blank_oneMemory
  have hactive : (session halfLoad m₀).Active := ⟨hterm, hblocking⟩
  have hfetching : (session halfLoad m₀).Fetching (session halfLoad m₀).next :=
    Machine.fetching_next hone hactive (by simp [State.Fetchable, State.memorySize, hpc])
  have hfar : 0xFFF < (session halfLoad m₀).state.i + (session halfLoad m₀).next.x.val := by
    rw [hx, hi]
    decide
  have hcause := Machine.StepFault.instruction hactive (by omega) (.transfer (.inr hk) hfar)
  have hcalm : (session halfLoad m₀).trace.Calm := by simp [Trace.Calm, hhooks]
  obtain ⟨t, hs⟩ :=
    ((Machine.step_cause Bus.blank_oneMemory hsound hcalm).fails_iff
      (fun _ _ => Machine.StepFault.unique) _).2 hcause
  have hframe := session_fault_frame Bus.blank_oneMemory h₀ halfLoad hs (.inl rfl)
  have hload := hframe.loaded _ hfetching hk
  have hmemory := hframe.memory fun d hd => by simp [hd.eq_next hone, hk]
  refine ⟨Bus.blank_oneMemory, m₀, h₀, t, hs, rfl, ?_, ?_, ?_, ?_, hmemory⟩
  · simpa [hi, hlow] using hload 0
  · simpa [hi, hhigh] using hload 1
  · simpa [hi] using hload 2
  · rw [hframe.state]

end SpriteVM
