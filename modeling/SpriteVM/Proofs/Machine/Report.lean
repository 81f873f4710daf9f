import SpriteVM.Proofs.Bus.Replay
import SpriteVM.Proofs.Machine.Outcome
import SpriteVM.Proofs.Machine.Parts
import SpriteVM.Proofs.Machine.Primitive
import SpriteVM.Proofs.Machine.StepFault

namespace SpriteVM

/-- The accesses of an instruction, in their order, begun in this state over this memory. -/
def Instruction.traffic (d : Instruction) (s : State) (memory : Int → Int) : List Access :=
  match d.kind with
  | .bcd =>
    [⟨.write, s.i, s.reg d.x / 100⟩, ⟨.write, s.i + 1, s.reg d.x / 10 % 10⟩,
      ⟨.write, s.i + 2, s.reg d.x % 10⟩]
  | .storeRegisters => (Core.upTo d.x).map fun r => ⟨.write, s.i + r.val, s.reg r⟩
  | .loadRegisters => (Core.upTo d.x).map fun r => ⟨.read, s.i + r.val, memory (s.i + r.val)⟩
  | .draw =>
    -- the rows below the lower edge of the picture are not read
    let rows := s.screen.height - (s.reg d.y % s.screen.height).toNat
    (List.range (min d.nibble.val rows)).map fun (k : Nat) => ⟨.read, s.i + k, memory (s.i + k)⟩
  | _ => []

namespace Core

/-- However an instruction ends, what it added to the record explains the memory it leaves. -/
theorem Built.explained {α : Type} {act : Exec α} (h : Built act) (c : Core)
    (hb : c.bus.layout.OneMemory) :
    Ends act (fun _ t => Bus.Explains c.bus t.bus) (fun _ t => Bus.Explains c.bus t.bus) c := by
  induction h generalizing c with
  | pure | read | update | fail => exact Bus.Explains.refl c.bus
  | bind h hn ih ihn =>
    rw [ends_bind]
    refine (ih c hb).imp (fun a t ht => ?_) fun _ _ ht => ht
    have hbt : t.bus.layout.OneMemory := ht.layout ▸ hb
    exact (ihn a t hbt).imp (fun _ _ hu => ht.trans hu) fun _ _ hu => ht.trans hu
  | onState act =>
    rw [ends_onState]
    exact Ends.of_forall (fun _ _ _ => Bus.Explains.refl c.bus) fun _ _ _ => Bus.Explains.refl c.bus
  | busRead address =>
    rw [ends_onBus]
    exact Bus.read_explains address c.bus
  | busWrite address data =>
    rw [ends_onBus]
    exact Bus.write_explains hb address data

section Traffic

variable {c : Core}

theorem storeRun_log (base : Int) (rs : List (Fin 16)) (c : Core) :
    Ends (storeRun base rs)
      (fun _ t => t.bus.log = c.bus.log ++ rs.map fun r => ⟨.write, base + r.val, c.state.reg r⟩)
      (fun _ _ => True) c := by
  induction rs generalizing c with
  | nil => simp [storeRun]
  | cons r rs ih =>
    rw [storeRun, ends_bind, ends_read, ends_bind, ends_onBus]
    refine Ends.of_forall (fun _ b hw => ?_) fun _ _ _ => trivial
    refine (ih ⟨c.state, b⟩).imp (fun _ t ht => ?_) fun _ _ h => h
    rw [ht, Bus.write_log hw, List.append_assoc]
    rfl

theorem loadRun_log (base : Int) (rs : List (Fin 16)) (c : Core) :
    Ends (loadRun base rs)
      (fun _ t => t.bus.log =
        c.bus.log ++ rs.map fun r => ⟨.read, base + r.val, c.bus.byte (base + r.val)⟩)
      (fun _ _ => True) c := by
  induction rs generalizing c with
  | nil => simp [loadRun]
  | cons r rs ih =>
    rw [loadRun, ends_bind, ends_onBus]
    refine Ends.of_forall (fun value b hr => ?_) fun _ _ _ => trivial
    obtain ⟨hlog, hbyte⟩ := Bus.read_log hr
    rw [ends_bind, ends_update]
    refine (ih ⟨c.state.setReg r value, b⟩).imp (fun _ t ht => ?_) fun _ _ h => h
    rw [ht, hlog, hbyte, List.append_assoc]
    rfl

theorem storeDecimal_log (x : Fin 16) (c : Core) :
    Ends (storeDecimal x)
      (fun _ t => t.bus.log = c.bus.log ++
        [⟨.write, c.state.i, c.state.reg x / 100⟩, ⟨.write, c.state.i + 1, c.state.reg x / 10 % 10⟩,
          ⟨.write, c.state.i + 2, c.state.reg x % 10⟩])
      (fun _ _ => True) c := by
  rw [storeDecimal, ends_bind, ends_read, ends_bind, ends_read, ends_bind, ends_onBus]
  refine Ends.of_forall (fun _ b₁ h₁ => ?_) fun _ _ _ => trivial
  rw [ends_bind, ends_onBus]
  refine Ends.of_forall (fun _ b₂ h₂ => ?_) fun _ _ _ => trivial
  rw [ends_onBus]
  refine Ends.of_forall (fun _ b₃ h₃ => ?_) fun _ _ _ => trivial
  rw [Bus.write_log h₃, Bus.write_log h₂, Bus.write_log h₁]
  simp

theorem drawRows_log (left top : Nat) (address : Int) (n : Nat) (c : Core) :
    Ends (drawRows left top address n)
      (fun _ t => t.bus.log = c.bus.log ++
        (List.range n).map fun (k : Nat) => ⟨.read, address + k, c.bus.byte (address + k)⟩)
      (fun _ _ => True) c := by
  induction n generalizing top address c with
  | zero => simp [drawRows]
  | succ n ih =>
    rw [drawRows, ends_bind, ends_onBus]
    refine Ends.of_forall (fun row b hr => ?_) fun _ _ _ => trivial
    obtain ⟨hlog, hbyte⟩ := Bus.read_log hr
    rw [ends_bind, ends_drawRow, ends_bind]
    refine (ih (top + 1) (address + 1) _).imp (fun _ t ht => ?_) fun _ _ h => h
    have hnext (k : Nat) : address + 1 + (k : Int) = address + (k + 1 : Nat) := by omega
    rw [ends_pure, ht, hlog, hbyte, List.range_succ_eq_map]
    simp [hnext, Function.comp_def]

theorem drawSprite_log (x y : Fin 16) (n : Nat) (c : Core) :
    Ends (drawSprite x y n)
      (fun _ t => t.bus.log = c.bus.log ++
        (List.range (min n (c.state.screen.height -
          (c.state.reg y % c.state.screen.height).toNat))).map
            fun (k : Nat) => ⟨.read, c.state.i + k, c.bus.byte (c.state.i + k)⟩)
      (fun _ _ => True) c := by
  rw [drawSprite, ends_bind, ends_read, ends_bind]
  exact drawRows_log _ _ _ _ c

theorem then_advance_log {act : Exec Unit} {l : List Access}
    (h : Ends act (fun _ t => t.bus.log = l) (fun _ _ => True) c) :
    Ends (do act; advance false) (fun _ t => t.bus.log = l) (fun _ _ => True) c := by
  rw [ends_bind]
  exact h

/-- An instruction that ends has made the accesses of its traffic, and no others. -/
theorem execute_log (d : Instruction) (c : Core) :
    Ends (execute d) (fun _ t => t.bus.log = c.bus.log ++ d.traffic c.state c.bus.byte)
      (fun _ _ => True) c := by
  by_cases hbus : .bus ∈ d.kind.writes
  · unfold execute Instruction.traffic
    cases hk : d.kind with
    | bcd => exact then_advance_log (storeDecimal_log d.x c)
    | storeRegisters => exact then_advance_log (storeRun_log c.state.i _ c)
    | loadRegisters => exact then_advance_log (loadRun_log c.state.i _ c)
    | draw => exact then_advance_log (drawSprite_log d.x d.y d.nibble.val c)
    | _ => simp [hk, Kind.writes] at hbus
  · have hnone : d.traffic c.state c.bus.byte = [] := by
      unfold Instruction.traffic
      cases hk : d.kind <;> simp_all [Kind.writes]
    refine (execute_writes d c).imp (fun _ t ht => ?_) fun _ _ _ => trivial
    have hsame : t.bus = c.bus := ht .bus hbus
    rw [hnone, hsame, List.append_nil]

end Traffic

end Core

theorem Snapshot.unwritten {s : Snapshot} {address : Int} (h : s.touched address .write = false)
    (data : Int) : ⟨.write, address, data⟩ ∉ s.accesses := by
  intro hm
  have hne := List.any_eq_false.1 h _ hm
  simp at hne

namespace Machine

variable {m t : Machine} {s : Snapshot} {d : Instruction} {b u : Bus} {address : Int}

/-- The two accesses of a fetch. -/
def fetchTraffic (address : Int) (memory : Int → Int) : List Access :=
  [⟨.read, address, memory address⟩, ⟨.read, address + 1, memory (address + 1)⟩]

theorem readInstruction_log (h : readInstruction address b = .ok d u) :
    u.log = b.log ++ fetchTraffic address b.byte ∧ u.byte = b.byte := by
  obtain ⟨high, low, b', hh, hl, -⟩ := readInstruction_eq_ok h
  obtain ⟨hlog, hbyte⟩ := Bus.read_log hh
  obtain ⟨hlog', hbyte'⟩ := Bus.read_log hl
  refine ⟨?_, hbyte'.trans hbyte⟩
  rw [hlog', hlog, hbyte, List.append_assoc]
  rfl

theorem readInstruction_explained (h : readInstruction address b = .ok d u) : b.Explains u := by
  obtain ⟨high, low, b', hh, hl, -⟩ := readInstruction_eq_ok h
  exact ((Bus.read_explains address b).ok hh).trans ((Bus.read_explains (address + 1) b').ok hl)

/-- A cycle starts from an empty record, whatever was in it. -/
theorem step_cleared (ha : m.Active) : m.cleared.step = m.step := by
  have hm := (ends_self (P := (· = m.step))).2 rfl
  have hfetch := (ends_step_active ha).1 hm
  exact (ends_self (P := (· = m.step))).1 ((ends_step_active (m := m.cleared) ha).2 hfetch)

theorem step_accesses (hs : m.step = .ok s t) (hd : s.executed = some d) :
    s.accesses = fetchTraffic m.state.pc m.bus.byte ++ d.traffic m.state m.bus.byte := by
  obtain ⟨-, -, b, c, trace, hr, he, -, rfl, -⟩ := step_eq_ok hs hd
  obtain ⟨hlog, hbyte⟩ := readInstruction_log hr
  have hexec := (Core.execute_log d ⟨m.state, b⟩).ok he
  calc (m.report d c).accesses = b.log ++ d.traffic m.state b.byte := hexec
    _ = fetchTraffic m.state.pc m.bus.byte ++ d.traffic m.state m.bus.byte := by
      rw [hlog, hbyte]
      rfl

theorem step_replays (hb : m.bus.layout.OneMemory) (hs : m.step = .ok s t)
    (hd : s.executed = some d) : Replays s.accesses m.bus.byte t.bus.byte := by
  obtain ⟨-, -, b, c, trace, hr, he, -, rfl, rfl⟩ := step_eq_ok hs hd
  have hfetch : m.cleared.bus.Explains b := readInstruction_explained hr
  have hbus : b.layout.OneMemory := hfetch.layout ▸ hb
  have hexec : b.Explains c.bus := ((Core.Built.execute d).explained ⟨m.state, b⟩ hbus).ok he
  -- the record was empty at the start, so all of it is of this cycle
  obtain ⟨l, hlog, hplay⟩ := (hfetch.trans hexec).record
  have hall : (m.report d c).accesses = l := hlog
  rw [hall]
  exact hplay

theorem step_instruction (hb : m.bus.layout.OneMemory) (hs : m.step = .ok s t)
    (hd : s.executed = some d) : d = m.next := by
  obtain ⟨ha, hp, b, c, trace, hr, -⟩ := step_eq_ok hs hd
  have hfetching : m.Fetching d := ⟨ha, hp, b, hr⟩
  exact hfetching.eq_next hb

end Machine

/-- A cycle executes what the two bytes at the counter say, and the accesses it reports, which are its
own, lead from the memory before it to the memory after it. -/
theorem session_report {b : Bus} {seed : Int} {m₀ : Machine} (hb : b.layout.OneMemory)
    (h₀ : Machine.create b seed = .ok m₀) (actions : List HostAction) {s : Snapshot} {t : Machine}
    {d : Instruction} (hs : (session actions m₀).step = .ok s t) (hd : s.executed = some d) :
    let m := session actions m₀
    let memory := m.bus.byte
    let p := m.state.pc
    d = Instruction.decode (memory p * 256 + memory (p + 1)) p ∧
      s.accesses = [⟨.read, p, memory p⟩, ⟨.read, p + 1, memory (p + 1)⟩] ++ d.traffic m.state memory ∧
      m.cleared.step = .ok s t ∧ Replays s.accesses memory t.bus.byte ∧
      (∀ a, s.touched a .write = false → t.bus.byte a = memory a) ∧
      t.cycles = m.cycles + 1 ∧ s.cycle = t.cycles ∧ t.bus.log = [] := by
  have hsound : (session actions m₀).Sound b.layout :=
    session_keeps (fun a _ => a.act_keeps hb.memoryOnly) (Machine.create_sound h₀)
  have hlayout : (session actions m₀).bus.layout.OneMemory := hsound.layout ▸ hb
  have hreplay := Machine.step_replays hlayout hs hd
  obtain ⟨ha, -, _, _, _, -, -, -, hreport, hafter⟩ := Machine.step_eq_ok hs hd
  refine ⟨Machine.step_instruction hlayout hs hd, Machine.step_accesses hs hd,
    (Machine.step_cleared ha).trans hs, hreplay, fun a hq => hreplay.unwritten (s.unwritten hq), ?_⟩
  subst hreport hafter
  exact ⟨rfl, rfl, rfl⟩

/-- Up to a store that overwrites itself, with a read and a failed write of the host before it. -/
def overwriting : List HostAction :=
  [.load [0x60, 0x12, 0xA2, 0x04, 0xF0, 0x55], .step, .step, .busRead 0x300, .busWrite 0x1000 1]

theorem session_report_overwriting : Bus.blank.layout.OneMemory ∧
    ∃ m₀, Machine.create Bus.blank 7 = .ok m₀ ∧ (session overwriting m₀).bus.log ≠ [] ∧
      ∃ s t d, (session overwriting m₀).step = .ok s t ∧ s.executed = some d ∧
        s.accesses = [⟨.read, 0x204, 0xF0⟩, ⟨.read, 0x205, 0x55⟩, ⟨.write, 0x204, 0x12⟩] ∧
        Replays s.accesses (session overwriting m₀).bus.byte t.bus.byte := by
  obtain ⟨m₀, h₀, hrun⟩ := Machine.exists_created Bus.blank 7 (fun m₀ =>
    !(session overwriting m₀).bus.log.isEmpty &&
      match (session overwriting m₀).step with
      | .ok s _ => s.executed.isSome &&
        decide (s.accesses = [⟨.read, 0x204, 0xF0⟩, ⟨.read, 0x205, 0x55⟩, ⟨.write, 0x204, 0x12⟩])
      | .error _ _ => false) (by decide +kernel)
  obtain ⟨hlog, hrun⟩ := Bool.and_eq_true_iff.1 hrun
  cases hs : (session overwriting m₀).step with
  | error f t => simp [hs] at hrun
  | ok s t =>
    simp only [hs, Bool.and_eq_true, decide_eq_true_eq] at hrun
    obtain ⟨d, hd⟩ := Option.isSome_iff_exists.1 hrun.1
    obtain ⟨-, -, -, hreplay, -⟩ := session_report Bus.blank_oneMemory h₀ overwriting hs hd
    exact ⟨Bus.blank_oneMemory, m₀, h₀, by simpa using hlog, s, t, d, hs, hd, hrun.2,
      hreplay⟩

end SpriteVM
