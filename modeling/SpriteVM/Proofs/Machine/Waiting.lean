import SpriteVM.Proofs.Machine.KeyWait
import SpriteVM.Proofs.Machine.Reads
import SpriteVM.Proofs.Machine.Report

namespace SpriteVM

/-- What a host does while a program waits for a key. -/
inductive HostAction.InWait : HostAction → Prop
  | step : InWait .step
  | setKey (key : Int) (down : Bool) : InWait (.setKey key down)
  | tick : InWait .tick
  | takeDraw : InWait .takeDraw
  | resolveKey : InWait .resolveKey

/-- From `t` the host came to `w`, and it never looked for a key while one was held. -/
inductive AwaitsKey (t : Machine) : Machine → Prop
  | refl : AwaitsKey t t
  | act {w : Machine} {a : HostAction} (h : AwaitsKey t w) (ha : a.InWait)
    (hk : a = .resolveKey → ¬ w.state.KeyHeld) : AwaitsKey t (left (a.act w))

theorem AwaitsKey.pass {t w : Machine} {a : HostAction} (h : AwaitsKey t w) (ha : a.InWait)
    (hk : a ≠ .resolveKey) : AwaitsKey t (left (a.act w)) :=
  h.act ha fun he => absurd he hk

namespace Machine

variable {m t u w : Machine} {d : Instruction} {a : HostAction}

/-- The parts that a host changes during a wait. -/
def waitChanges : List Part := [.keys, .delayTimer, .soundTimer, .draw]

theorem changes_inWait (c : Core) (keys : Vector Bool 16) (delay sound : Int) (draw : Bool) :
    Core.ChangesOnly waitChanges c ⟨{ c.state with
      keys := keys, delayTimer := delay, soundTimer := sound, draw := draw }, c.bus⟩ := by
  simp [Core.changesOnly_iff, waitChanges]

/-- What a host does in a wait changes the keypad, the timers and the draw flag at most, unless it
makes the machine go on. -/
theorem inWait_alike (ha : a.InWait)
    (hstep : a = .step → m.state.terminal = false ∧ m.state.blocking = true)
    (hkey : a = .resolveKey → m.state.blocking = true → ¬ m.state.KeyHeld) :
    AlikeBut waitChanges m (left (a.act m)) := by
  cases ha with
  | step =>
    obtain ⟨ht, hb⟩ := hstep rfl
    rw [HostAction.act, left_map, step_blocking ht hb]
    exact AlikeBut.refl _ m
  | setKey key down =>
    rw [HostAction.act, left_map]
    unfold setKey
    split
    · exact ⟨changes_inWait m.core _ _ _ _, rfl, rfl, rfl, rfl⟩
    · exact AlikeBut.refl _ m
  | tick | takeDraw => exact ⟨changes_inWait m.core _ _ _ _, rfl, rfl, rfl, rfl⟩
  | resolveKey =>
    rw [HostAction.act, left_map]
    have ho := resolveKey_outcome m
    generalize m.resolveKey = r at ho
    cases ho with
    | idle | unheld => exact AlikeBut.refl _ m
    | lost hb hk | pressed hb hk => exact absurd (State.keyHeld_of_lowestKey? hk) (hkey rfl hb)

/-- Whether a machine waits does not depend on what a host changes during a wait. -/
theorem AlikeBut.waits (h : AlikeBut waitChanges m t) :
    t.state.blocking = m.state.blocking ∧ t.state.terminal = m.state.terminal := by
  have hhalted : t.state.halted = m.state.halted := h.core .halted (by decide)
  have hquit : t.state.quit = m.state.quit := h.core .quit (by decide)
  exact ⟨h.core .blocking (by decide), by rw [State.terminal, State.terminal, hhalted, hquit]⟩

/-- A wait goes on until a key that is held is looked for. -/
theorem waits_alike (ht : t.state.terminal = false) (hb : t.state.blocking = true)
    (h : AwaitsKey t w) : AlikeBut waitChanges t w := by
  induction h with
  | refl => exact AlikeBut.refl _ t
  | act h ha hk ih =>
    obtain ⟨hblocking, hterminal⟩ := ih.waits
    refine ih.trans (inWait_alike ha (fun _ => ?_) fun he _ => hk he)
    exact ⟨hterminal.trans ht, hblocking.trans hb⟩

/-- After the wait the host's part of it leaves the program alone. -/
theorem session_alike (hb : u.state.blocking = false) {later : List HostAction}
    (ha : ∀ a ∈ later, a.InWait ∧ a ≠ .step) : AlikeBut waitChanges u (session later u) := by
  induction later generalizing u with
  | nil => exact AlikeBut.refl _ u
  | cons a later ih =>
    obtain ⟨hin, hstep⟩ := ha a List.mem_cons_self
    have hfirst : AlikeBut waitChanges u (left (a.act u)) := by
      refine inWait_alike hin (fun he => absurd he hstep) fun _ hblocking => ?_
      rw [hb] at hblocking
      contradiction
    have hrest := ih (hfirst.waits.1.trans hb) fun b hm => ha b (List.mem_cons_of_mem a hm)
    exact hfirst.trans hrest

/-- How a wait begins: the counter is past the instruction, and the register is noted. -/
theorem step_waitKey (h : m.Fetching d) (hk : d.kind = .waitKey) :
    let t := left m.step
    t.state = { m.state with pc := m.state.pc + 2, blocking := true, keyTarget := d.x.val } ∧
      t.bus.byte = m.bus.byte ∧ t.bus.layout = m.bus.layout ∧ t.bus.log = [] ∧
      t.cycles = m.cycles + 1 := by
  obtain ⟨ha, hp, b, hr⟩ := h
  have he : Core.execute d ⟨m.state, b⟩ = .ok () ⟨{ m.state with
      pc := m.state.pc + 2, blocking := true, keyTarget := d.x.val }, b⟩ := by
    rw [Core.execute, hk]
    rfl
  obtain ⟨trace, hleft⟩ := left_step_of_execute_ok ha hp hr he
  have hbyte : b.byte = m.bus.byte := (readInstruction_log hr).2
  have hlayout : b.layout = m.bus.layout := (readInstruction_explained hr).layout
  rw [hleft]
  exact ⟨rfl, hbyte, hlayout, rfl, rfl⟩

/-- The lowest key held ends the wait, and nothing but its register changes. -/
theorem resolveKey_held {x : Fin 16} (hb : m.state.blocking = true) (hx : m.state.keyTarget = x.val)
    (hh : m.state.KeyHeld) : ∃ key u, m.state.keys.get key = true ∧
      (∀ j < key, m.state.keys.get j = false) ∧ m.resolveKey = .ok true u ∧ m.Answers x key u := by
  have ho := resolveKey_outcome m
  generalize m.resolveKey = r at ho ⊢
  cases ho with
  | idle hidle => simp [hb] at hidle
  | unheld _ hk => exact absurd hh (State.lowestKey?_eq_none.1 hk)
  | lost _ _ ht =>
    rw [hx, State.slot?_val] at ht
    contradiction
  | @pressed _ key y hk ht u ha =>
    rw [hx, State.slot?_val] at ht
    obtain rfl := Option.some.inj ht
    obtain ⟨hdown, hbelow⟩ := State.lowestKey?_eq_some.1 hk
    exact ⟨key, u, hdown, hbelow, rfl, ha⟩

/-- The program goes on where it stood. -/
theorem Answers.goes_on {x key : Fin 16} (h : m.Answers x key u) :
    u.bus = m.bus ∧ u.state.pc = m.state.pc ∧ u.state.terminal = m.state.terminal ∧
      u.state.blocking = false := by
  obtain ⟨-, -, v, rfl⟩ := h
  exact ⟨rfl, rfl, rfl, rfl⟩

theorem resolveKey_unheld (hn : ¬ m.state.KeyHeld) : m.resolveKey = .ok false m := by
  have ho := resolveKey_outcome m
  generalize m.resolveKey = r at ho ⊢
  cases ho with
  | idle | unheld => rfl
  | lost _ hk | pressed _ hk => exact absurd (State.keyHeld_of_lowestKey? hk) hn

/-- The program goes on behind the instruction that waited: that is what the next cycle reads, after
whatever else the host does. -/
theorem next_behind_wait {later : List HostAction} (hterm : m.state.terminal = false)
    (hb : m.state.blocking = false) (hlog : m.bus.log = []) (hp : m.state.Fetchable)
    (ha : ∀ a ∈ later, a.InWait ∧ a ≠ .step) :
    let v := session later m
    Ends (readInstruction m.state.pc) (fun d _ => (left v.step).fetched = some d)
        (fun f _ => ∃ u, v.step = .error f u) m.bus ∧
      (m.bus.layout.OneMemory → (left v.step).fetched = some m.next) := by
  intro v
  have halike : AlikeBut waitChanges m v := session_alike hb ha
  obtain ⟨hblocking, hterminal⟩ := halike.waits
  have hactive : v.Active := ⟨hterminal.trans hterm, hblocking.trans hb⟩
  have hpc : v.state.pc = m.state.pc := halike.core .pc (by decide)
  have hbus : v.bus = m.bus := halike.core .bus (by decide)
  have hfetchable : v.state.Fetchable := by rwa [State.Fetchable, hpc]
  constructor
  · have hcleared : v.cleared.bus = m.bus := by
      calc v.cleared.bus = { m.bus with log := [] } := congrArg (fun b => { b with log := [] }) hbus
        _ = m.bus := by rw [← hlog]
    have hreads := step_reads hactive hfetchable
    rwa [hpc, hcleared] at hreads
  · intro hone
    have hnext : v.next = m.next := by rw [next, next, hpc, hbus]
    obtain ⟨-, -, b, hr⟩ := fetching_next (hbus ▸ hone) hactive hfetchable
    rw [← hnext]
    exact left_step_fetched hactive hfetchable hr

end Machine

open Machine

/-- A wait leaves all as it is until the host looks for a key while one is held. The lowest one goes
into the register then, and the program goes on behind the instruction that waited. -/
theorem wait_protocol {m : Machine} {d : Instruction} (hf : m.Fetching d) (hk : d.kind = .waitKey) :
    let p := m.state.pc
    let memory := m.bus.byte
    let t := left m.step
    t.state = { m.state with pc := p + 2, blocking := true, keyTarget := d.x.val } ∧
      t.bus.byte = memory ∧ t.bus.log = [] ∧ t.cycles = m.cycles + 1 ∧
    ∀ w, AwaitsKey t w → AlikeBut waitChanges t w ∧ w.step = .ok ⟨none, m.cycles + 1, []⟩ w ∧
      (¬ w.state.KeyHeld → w.resolveKey = .ok false w) ∧
      (w.state.KeyHeld → ∃ key u, w.state.keys.get key = true ∧
        (∀ j < key, w.state.keys.get j = false) ∧ w.resolveKey = .ok true u ∧ w.Answers d.x key u ∧
        ∀ later, (∀ a ∈ later, a.InWait ∧ a ≠ .step) → p + 2 < 0x1000 →
          let v := session later u
          Ends (readInstruction (p + 2)) (fun e _ => (left v.step).fetched = some e)
              (fun f _ => ∃ u, v.step = .error f u) t.bus ∧
            (m.bus.layout.OneMemory → (left v.step).fetched =
              some (Instruction.decode (memory (p + 2) * 256 + memory (p + 3)) (p + 2)))) := by
  intro p memory t
  obtain ⟨hstate, hbyte, hlayout, hlog, hcycles⟩ := step_waitKey hf hk
  obtain ⟨⟨hterm, -⟩, ⟨⟨hlo, -⟩, heven⟩, -⟩ := hf
  have ht : t.state.terminal = false := (congrArg State.terminal hstate).trans hterm
  have hb : t.state.blocking = true := congrArg State.blocking hstate
  refine ⟨hstate, hbyte, hlog, hcycles, fun w hw => ?_⟩
  have halike : AlikeBut waitChanges t w := waits_alike ht hb hw
  have hwt : w.state.terminal = false := halike.waits.2.trans ht
  have hwb : w.state.blocking = true := halike.waits.1.trans hb
  have hwpc : w.state.pc = p + 2 :=
    (halike.core .pc (by decide)).trans (congrArg State.pc hstate)
  have hwbus : w.bus = t.bus := halike.core .bus (by decide)
  have hwtarget : w.state.keyTarget = d.x.val :=
    (halike.core .keyTarget (by decide)).trans (congrArg State.keyTarget hstate)
  refine ⟨halike, ?_, resolveKey_unheld, fun hheld => ?_⟩
  · rw [step_blocking hwt hwb, halike.cycles.trans hcycles]
  · obtain ⟨key, u, hdown, hbelow, hresolved, ha⟩ := resolveKey_held hwb hwtarget hheld
    refine ⟨key, u, hdown, hbelow, hresolved, ha, fun later hlater hlt => ?_⟩
    obtain ⟨hubus, hupc, hut, hub⟩ := ha.goes_on
    rw [hwbus] at hubus
    rw [hwpc] at hupc
    have hp : u.state.Fetchable := by
      rw [State.Fetchable, hupc, State.memorySize]
      exact ⟨⟨by omega, hlt⟩, by omega⟩
    have hulog : u.bus.log = [] := (congrArg Bus.log hubus).trans hlog
    have hnext := next_behind_wait (hut.trans hwt) hub hulog hp hlater
    rw [next, hubus, hupc, hbyte, hlayout, Int.add_assoc] at hnext
    exact hnext

/-- Waits for a key for register 3, and clears the picture then. -/
def loadWait : HostAction := .load [0xF3, 0x0A, 0x00, 0xE0]

/-- A key that is down and up again before the host looks for one, and then two that stay down. -/
def pressing : List HostAction :=
  [.setKey 5 true, .setKey 5 false, .resolveKey, .tick, .step, .setKey 9 true, .setKey 2 true]

theorem wait_protocol_pressing : ∃ m₀, Machine.create Bus.blank 7 = .ok m₀ ∧
    let m := session [loadWait] m₀
    let w := session pressing (left m.step)
    m.Fetching m.next ∧ m.next.kind = .waitKey ∧ w.step = .ok ⟨none, m.cycles + 1, []⟩ w ∧
      w.state.reg 3 = 0 ∧ ∃ u, w.resolveKey = .ok true u ∧ u.state.reg 3 = 2 ∧
      (∀ y, y ≠ 3 → u.state.reg y = w.state.reg y) ∧ u.state.blocking = false ∧
      (left (session [.setKey 2 false] u).step).fetched =
        some (Instruction.decode 0x00E0 0x202) := by
  obtain ⟨m₀, h₀, hrun⟩ := Machine.exists_created Bus.blank 7 (fun m₀ =>
    let m := session [loadWait] m₀
    let t := left m.step
    let s := (session pressing t).state
    decide (m.state.terminal = false ∧ m.state.blocking = false ∧ m.state.pc = 0x200 ∧
      m.next.kind = .waitKey ∧ m.next.x = 3 ∧ m.bus.byte 0x202 = 0x00 ∧ m.bus.byte 0x203 = 0xE0 ∧
      ¬ (session (pressing.take 2) t).state.KeyHeld ∧
      s.keys.get 2 = true ∧ (∀ j < 2, s.keys.get j = false) ∧ s.reg 3 = 0)) (by decide +kernel)
  obtain ⟨hterm, hblocking, hpc, hk, hx, hhigh, hlow, hreleased, hdown, hbelow, hzero⟩ :=
    of_decide_eq_true hrun
  refine ⟨m₀, h₀, ?_⟩
  have hsound : (session [loadWait] m₀).Sound Bus.blank.layout :=
    session_keeps (fun a _ => a.act_keeps Bus.blank_oneMemory.memoryOnly) (create_sound h₀)
  generalize session [loadWait] m₀ = m at *
  intro _ w
  have hone : m.bus.layout.OneMemory := hsound.layout ▸ Bus.blank_oneMemory
  have hfetching : m.Fetching m.next :=
    fetching_next hone ⟨hterm, hblocking⟩ (by simp [State.Fetchable, State.memorySize, hpc])
  have hwaits : AwaitsKey (left m.step) w := by
    have hbegin : AwaitsKey (left m.step) (left m.step) := .refl
    have hup := (hbegin.pass (.setKey 5 true) (by decide)).pass (.setKey 5 false) (by decide)
    have hlooked := hup.act .resolveKey fun _ => hreleased
    have hticked := (hlooked.pass .tick (by decide)).pass .step (by decide)
    exact (hticked.pass (.setKey 9 true) (by decide)).pass (.setKey 2 true) (by decide)
  obtain ⟨-, -, -, -, hprotocol⟩ := wait_protocol hfetching hk
  obtain ⟨-, hstep, -, hresolve⟩ := hprotocol w hwaits
  obtain ⟨key, u, hkey, hlowest, hresolved, ha, hbehind⟩ := hresolve ⟨2, hdown⟩
  have htwo : key = 2 := by
    obtain hlt | heq | hgt := Nat.lt_trichotomy key.val 2
    · rw [hbelow key hlt] at hkey
      exact absurd hkey Bool.false_ne_true
    · exact Fin.ext heq
    · rw [hlowest 2 hgt] at hdown
      exact absurd hdown Bool.false_ne_true
  subst htwo
  have hnext := (hbehind [.setKey 2 false] (by simp [HostAction.InWait.setKey]) (by omega)).2 hone
  have hp : m.state.pc + 2 = 0x202 := by omega
  have hp' : m.state.pc + 3 = 0x203 := by omega
  rw [hp, hp', hhigh, hlow] at hnext
  rw [hx] at ha
  obtain ⟨-, -, -, hgoes⟩ := ha.goes_on
  exact ⟨hfetching, hk, hstep, hzero, u, hresolved, ha.register, ha.others, hgoes, hnext⟩

end SpriteVM
