import SpriteVM.Proofs.Machine.Shown
import SpriteVM.Proofs.Machine.Stopped

namespace SpriteVM

/-- The kinds of instructions that may move on past the next one. -/
def Kind.skips : List Kind :=
  [.skipEqImm, .skipNeImm, .skipEqReg, .skipNeReg, .skipKeyDown, .skipKeyUp]

namespace Core

variable {α : Type} {ps : List Part} {k : Kind} {c : Core}

/-- Where an instruction of a kind leaves the counter that it finds at `p`. Only what is jumped to is
looked at first. -/
inductive Goes (k : Kind) (p : Int) : Int → Prop
  | stays : Goes k p p
  | next : Goes k p (p + 2)
  | skips (hk : k ∈ Kind.skips) : Goes k p (p + 4)
  | jumps {target : Int} (hr : 0 ≤ target ∧ target < State.memorySize) (he : target % 2 = 0) :
    Goes k p target

theorem Goes.even {p q : Int} (h : Goes k p q) (hp : 0 ≤ p ∧ p % 2 = 0) : 0 ≤ q ∧ q % 2 = 0 := by
  cases h with
  | stays => exact hp
  | next | skips => omega
  | jumps hr he => exact ⟨hr.1, he⟩

/-- Wherever it begins and however it ends, an action moves the counter as instructions of this kind
do. -/
def Steers (k : Kind) (act : Exec Unit) : Prop :=
  ∀ c, Goes k c.state.pc (left (act c)).state.pc

namespace Steers

/-- What comes before leaves the counter alone. -/
theorem after {act : Exec α} {next : α → Exec Unit} (h : Writes ps act) (hpc : .pc ∉ ps)
    (hn : ∀ a, Steers k (next a)) : Steers k (act >>= next) := by
  intro c
  cases hr : act c with
  | ok a t =>
    have hpc' : t.state.pc = c.state.pc := (h c).ok hr .pc hpc
    rw [bind_of_ok hr, ← hpc']
    exact hn a t
  | error f t =>
    have hpc' : t.state.pc = c.state.pc := (h c).error hr .pc hpc
    rw [bind_of_error hr, left, hpc']
    exact .stays

/-- What comes before only reads. -/
theorem behind {act : Exec α} {next : α → Exec Unit} (h : Writes [] act)
    (hn : ∀ a, Steers k (next a)) : Steers k (act >>= next) :=
  after h List.not_mem_nil hn

theorem advance {skip : Bool} (hk : skip = true → k ∈ Kind.skips) : Steers k (advance skip) := by
  intro c
  cases skip with
  | true => exact .skips (hk rfl)
  | false => exact .next

theorem then_advance {act : Exec Unit} (h : Writes ps act) (hpc : .pc ∉ ps) :
    Steers k (do act; Core.advance false) :=
  after h hpc fun _ => advance nofun

theorem change {f : State → State} (hf : ∀ s, (f s).pc = s.pc) : Steers k (change f) := by
  intro c
  have hnext : (left (Core.change f c)).state.pc = (f c.state).pc + 2 := rfl
  rw [hnext, hf]
  exact .next

theorem stop {f : State → State} (hf : ∀ s, (f s).pc = s.pc) : Steers k (update f) := by
  intro c
  have hsame : (left (update f c)).state.pc = (f c.state).pc := rfl
  rw [hsame, hf]
  exact .stays

theorem skipIf (hk : k ∈ Kind.skips) (condition : State → Bool) : Steers k (skipIf condition) :=
  behind (Writes.read condition) fun _ => advance fun _ => hk

theorem jumpTo (target : Int) : Steers k (jumpTo target) := by
  intro c
  refine ends_left (P := fun t : Core => Goes k c.state.pc t.state.pc).1 ?_
  rw [ends_jumpTo]
  split_ifs with hr he
  · exact .jumps hr he
  · exact .stays
  · exact .stays

theorem call (target : Int) : Steers k (call target) :=
  behind (checkTarget_writes target) fun _ => behind (Writes.read _) fun _ =>
    after (push_writes _) (by decide) fun _ => jumpTo target

end Steers

/-- An instruction moves the counter on by one instruction, or by two if it skips, or to a target in
the memory, or it leaves it where it is. -/
theorem execute_steers (d : Instruction) : Steers d.kind (execute d) := by
  unfold execute
  cases d.kind with
  | ret => exact Steers.after pop_writes (by decide) Steers.jumpTo
  | jump => exact Steers.jumpTo d.nnn
  | call => exact Steers.call d.nnn
  | jumpOffset =>
    exact Steers.behind (Writes.read _) fun offset => Steers.jumpTo (d.nnn + offset)
  | skipEqImm | skipNeImm | skipEqReg | skipNeReg => exact Steers.skipIf (by decide) _
  | skipKeyDown | skipKeyUp =>
    exact Steers.behind (keyDown_writes d.x) fun _ => Steers.advance fun _ => by decide
  | bcd => exact Steers.then_advance (storeDecimal_writes d.x) (by decide)
  | storeRegisters =>
    exact Steers.then_advance ((Writes.read _).bind fun i => storeRun_writes i _) (by decide)
  | loadRegisters =>
    exact Steers.then_advance ((Writes.read _).bind fun i => loadRun_writes i _) (by decide)
  | draw => exact Steers.then_advance (drawSprite_writes d.x d.y d.nibble.val) (by decide)
  | nop => exact Steers.advance nofun
  | halt | unknown => exact Steers.stop fun _ => rfl
  | _ => exact Steers.change fun _ => rfl

end Core

section PastEnd

variable {actions later : List HostAction} {m m₀ : Machine} {a : HostAction}

/-- The cycle of the instruction `d` moves the counter from inside the memory past its end. -/
structure Machine.Leaves (m : Machine) (d : Instruction) : Prop where
  fetching : m.Fetching d
  inside : d.address < 0x1000
  past : 0x1000 ≤ (left m.step).state.pc
  goes : (left m.step).state.pc = d.address + 2 ∨
    d.kind ∈ Kind.skips ∧ (left m.step).state.pc = d.address + 4

/-- A cycle leaves the counter where it is, or its instruction moves it. -/
theorem Machine.step_goes (m : Machine) : (left m.step).state.pc = m.state.pc ∨
    ∃ d, m.Fetching d ∧ Core.Goes d.kind m.state.pc (left m.step).state.pc := by
  obtain hsame | ⟨d, b, ha, hp, hr, hs⟩ := left_step_state m
  · rw [hsame]
    exact .inl rfl
  · refine .inr ⟨d, ⟨ha, hp, b, hr⟩, ?_⟩
    rw [hs]
    exact Core.execute_steers d ⟨m.state, b⟩

theorem Machine.step_leaves (hm : m.state.pc < 0x1000) (ht : 0x1000 ≤ (left m.step).state.pc) :
    ∃ d, m.Leaves d := by
  obtain hsame | ⟨d, hf, hgoes⟩ := step_goes m
  · omega
  · refine ⟨d, hf, hf.address_eq ▸ hm, ht, ?_⟩
    rw [hf.address_eq]
    generalize (left m.step).state.pc = p at hgoes ht
    cases hgoes with
    | stays => omega
    | next => exact .inl rfl
    | skips hk => exact .inr ⟨hk, rfl⟩
    | jumps hr =>
      unfold State.memorySize at hr
      omega

/-- Whatever is done to a machine, its counter stays even and does not get negative. -/
theorem HostAction.act_even (a : HostAction) :
    Keeps (fun m : Machine => 0 ≤ m.state.pc ∧ m.state.pc % 2 = 0) a.act := by
  intro m hm
  apply (ends_left (P := fun m : Machine => 0 ≤ m.state.pc ∧ m.state.pc % 2 = 0)).2
  by_cases hs : a = .step
  · subst hs
    rw [act, left_map]
    obtain hsame | ⟨d, -, hgoes⟩ := m.step_goes
    · rwa [hsame]
    · exact hgoes.even hm
  · by_cases hr : a = .reset
    · subst hr
      have hentry : (State.initial m.seed).pc = 0x200 := rfl
      rw [act, left_map, Machine.left_reset_state]
      omega
    · rwa [(act_changes hs hr m).pc]

/-- Past the end of the memory there is no way on but a reset. -/
theorem HostAction.act_past (hr : a ≠ .reset) (hm : 0x1000 ≤ m.state.pc) :
    (left (a.act m)).state.pc = m.state.pc := by
  by_cases hs : a = .step
  · subst hs
    rw [act, left_map]
    obtain hsame | ⟨d, b, -, ⟨⟨-, hlt⟩, -⟩, -⟩ := m.left_step_state
    · rw [hsame]
    · unfold State.memorySize at hlt
      omega
  · exact (act_changes hs hr m).pc

theorem session_past (hr : .reset ∉ later) (hm : 0x1000 ≤ m.state.pc) :
    (session later m).state.pc = m.state.pc := by
  induction later generalizing m with
  | nil => rfl
  | cons a later ih =>
    obtain ⟨ha, hlater⟩ := List.ne_and_not_mem_of_not_mem_cons hr
    have hfirst := HostAction.act_past (Ne.symm ha) hm
    have hrest := ih hlater (m := left (a.act m)) (by rwa [hfirst])
    exact hrest.trans hfirst

/-- A session that ends with the counter past the end has a last cycle that moved it there. -/
theorem session_leaves (h₀ : m₀.state.pc < 0x1000) (ht : 0x1000 ≤ (session actions m₀).state.pc) :
    ∃ before after d, actions = before ++ .step :: after ∧ .reset ∉ after ∧
      (session before m₀).Leaves d := by
  have hreset (m : Machine) : ¬ 0x1000 ≤ (left (Machine.reset m)).state.pc := by
    rw [Machine.left_reset_state]
    simp [State.initial, State.entryPoint]
  have hother (a : HostAction) (m : Machine) (hs : a ≠ .step) (hr : a ≠ .reset)
      (h : 0x1000 ≤ (left (a.act m)).state.pc) : 0x1000 ≤ m.state.pc := by
    rwa [(HostAction.act_changes hs hr m).pc] at h
  obtain ⟨before, after, hactions, hr, hnot, hpast⟩ :=
    session_last (P := fun m => 0x1000 ≤ m.state.pc) hreset hother (by omega) ht
  obtain ⟨d, hd⟩ := Machine.step_leaves (by omega) hpast
  exact ⟨before, after, d, hactions, hr, hd⟩

end PastEnd

/-- The value is one of a register of this width. -/
def RegisterInfo.Fits (r : RegisterInfo) (value : Int) : Prop :=
  0 ≤ value ∧ value < (Nat.pow 2 r.width : Nat)

namespace State

variable {s : State}

/-- Within the bounds of a state every register is one of its width, if the counter is in the memory. -/
theorem Sound.fits (h : s.Sound) {r : RegisterInfo} (hr : r ∈ declared)
    (hpc : r.name = "PC" → s.pc < 0x1000) :
    ∃ value, s.registers.lookup r.name = some value ∧ r.Fits value := by
  obtain ⟨x, rfl⟩ | rfl | rfl | rfl | rfl | rfl := mem_declared.1 hr
  · have hx := h.reg x
    have hshown : (registerName x, s.reg x) ∈ s.registers :=
      List.mem_append_left _ (List.mem_map_of_mem (List.mem_finRange x))
    exact ⟨s.reg x, lookup_registers hshown, hx.1, Int.lt_add_one_of_le hx.2⟩
  · have hi := h.index
    exact ⟨s.i, lookup_registers (by simp [registers]), hi.1, Int.lt_add_one_of_le hi.2⟩
  · exact ⟨s.pc, lookup_registers (by simp [registers]), h.pc.1, hpc rfl⟩
  · have hsp := h.sp
    have hlt : s.sp < 256 := by omega
    exact ⟨s.sp, lookup_registers (by simp [registers]), hsp.1, hlt⟩
  · have hdelay := h.delay
    exact ⟨s.delayTimer, lookup_registers (by simp [registers]), hdelay.1,
      Int.lt_add_one_of_le hdelay.2⟩
  · have hsound := h.sound
    exact ⟨s.soundTimer, lookup_registers (by simp [registers]), hsound.1,
      Int.lt_add_one_of_le hsound.2⟩

end State

/-- Each register is shown once with a value of its width, but for the counter: the last instructions
of the memory may move it past the end, where it stays until a reset. -/
theorem session_registers {b : Bus} {seed : Int} {m₀ : Machine} (h₀ : Machine.create b seed = .ok m₀)
    (actions : List HostAction) :
    let m := session actions m₀
    m.state.registers.map (·.1) = declared.map (·.name) ∧ (declared.map (·.name)).Nodup ∧
      (b.layout.MemoryOnly → ∀ r ∈ declared, (r.name = "PC" → m.state.pc < 0x1000) →
        ∃ value, m.state.registers.lookup r.name = some value ∧ r.Fits value) ∧
      m.state.registers.lookup "PC" = some m.state.pc ∧ m.state.pc % 2 = 0 ∧ 0 ≤ m.state.pc ∧
      (0x1000 ≤ m.state.pc →
        (∃ before after d, actions = before ++ .step :: after ∧ .reset ∉ after ∧
          (session before m₀).Leaves d) ∧
        ∀ later, .reset ∉ later →
          let n := session later m
          n.state.pc = m.state.pc ∧
            (n.Active → n.step = .error (.counter n.state.pc) n.cleared)) := by
  intro m
  obtain ⟨u, -, hm₀⟩ := Machine.create_eq_ok.1 h₀
  have hentry : m₀.state.pc = 0x200 := congrArg (·.state.pc) hm₀
  have hbegin : 0 ≤ m₀.state.pc ∧ m₀.state.pc % 2 = 0 := by omega
  have heven : 0 ≤ m.state.pc ∧ m.state.pc % 2 = 0 :=
    session_keeps (I := fun m => 0 ≤ m.state.pc ∧ m.state.pc % 2 = 0) (fun a _ => a.act_even) hbegin
  have hshown : ("PC", m.state.pc) ∈ m.state.registers := by simp [State.registers]
  refine ⟨m.state.registers_names, declared_nodup, fun hb r hr => ?_, State.lookup_registers hshown,
    heven.2, heven.1, fun hpast => ?_⟩
  · have hsound : m.Sound b.layout :=
      session_keeps (fun a _ => a.act_keeps hb) (Machine.create_sound h₀)
    exact hsound.state.fits hr
  · refine ⟨session_leaves (by omega) hpast, fun later hr => ?_⟩
    have hstays := session_past hr hpast
    refine ⟨hstays, fun ha => (Machine.CycleOutcome.counter ha fun hp => ?_).step_eq⟩
    have hin := hp.1.2
    unfold State.memorySize at hin
    omega

/-- A jump to the last place of the memory, where an instruction that does nothing stands. -/
def toTheEnd : List HostAction := [.load [0x1F, 0xFE], .step, .step]

theorem toTheEnd_pc : ∃ m₀, Machine.create Bus.blank 7 = .ok m₀ ∧
    (session toTheEnd m₀).state.pc = 0x1000 := by
  obtain ⟨m₀, h₀, hrun⟩ := Machine.exists_created Bus.blank 7
    (fun m₀ => (session toTheEnd m₀).state.pc = 0x1000) (by decide +kernel)
  exact ⟨m₀, h₀, of_decide_eq_true hrun⟩

theorem session_registers_toTheEnd : Bus.blank.layout.MemoryOnly ∧
    ∃ m₀, Machine.create Bus.blank 7 = .ok m₀ ∧
      let m := session toTheEnd m₀
      (∀ r ∈ declared, r.name ≠ "PC" →
        ∃ value, m.state.registers.lookup r.name = some value ∧ r.Fits value) ∧
      m.state.pc = 0x1000 ∧ (session [.tick, .step, .takeDraw] m).state.pc = 0x1000 := by
  have hb : Bus.blank.layout.MemoryOnly := Bus.blank_oneMemory.memoryOnly
  obtain ⟨m₀, h₀, hpc⟩ := toTheEnd_pc
  obtain ⟨-, -, hfits, -, -, -, hpast⟩ := session_registers h₀ toTheEnd
  obtain ⟨-, hlater⟩ := hpast (Int.le_of_eq hpc.symm)
  have hstays := (hlater [.tick, .step, .takeDraw] (by decide)).1
  exact ⟨hb, m₀, h₀, fun r hr hname => hfits hb r hr fun he => absurd he hname, hpc, hstays.trans hpc⟩

/-- After the last instruction of the memory the counter is no number of twelve bits. -/
theorem session_registers_pastEnd : ∃ m₀, Machine.create Bus.blank 7 = .ok m₀ ∧
    let m := session toTheEnd m₀
    ⟨"PC", 12⟩ ∈ declared ∧ m.state.registers.lookup "PC" = some 0x1000 ∧
      ¬ RegisterInfo.Fits ⟨"PC", 12⟩ 0x1000 ∧ ¬ m.state.pc < 0x1000 := by
  obtain ⟨m₀, h₀, hpc⟩ := toTheEnd_pc
  have hshown : ("PC", (session toTheEnd m₀).state.pc) ∈ (session toTheEnd m₀).state.registers := by
    simp [State.registers]
  have hlookup := State.lookup_registers hshown
  rw [hpc] at hlookup
  refine ⟨m₀, h₀, mem_declared.2 (by simp), hlookup, ?_, by omega⟩
  exact fun hfits => absurd hfits.2 (by decide)

end SpriteVM
