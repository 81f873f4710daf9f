import SpriteVM.Proofs.Machine.Reads
import SpriteVM.Proofs.Machine.StepFault

namespace SpriteVM

section Passes

variable {ε σ α β : Type} {g : σ → σ} {act : EStateM ε σ α} {s : σ}

/-- Begun in `s`, an action comes to the same whether the state is changed before it or after it. -/
def Passes (g : σ → σ) (act : EStateM ε σ α) (s : σ) : Prop :=
  Related (fun t u => u = g t) (act s) (act (g s))

theorem Passes.bind {next : α → EStateM ε σ β} (h : Passes g act s)
    (hn : ∀ a t, act s = .ok a t → Passes g (next a) t) : Passes g (act >>= next) s := by
  unfold Passes at h ⊢
  cases hr : act s with
  | ok a t =>
    rw [hr] at h
    obtain ⟨_, hu, rfl⟩ := h.of_ok
    rw [bind_of_ok hr, bind_of_ok hu]
    exact hn a t hr
  | error f t =>
    rw [hr] at h
    obtain ⟨_, hu, rfl⟩ := h.of_error
    rw [bind_of_error hr, bind_of_error hu]
    exact .error rfl

theorem Passes.map (h : Passes g act s) (view : α → β) : Passes g (view <$> act) s := by
  rw [← bind_pure_comp]
  exact h.bind fun _ _ _ => .ok rfl

end Passes

/-- The kinds of instructions that have to do with the timers. -/
def Kind.timed : List Kind := [.readDelay, .writeDelay, .writeSound]

/-- The kinds of instructions that ask whether a key is down. -/
def Kind.asking : List Kind := [.skipKeyDown, .skipKeyUp]

namespace Core

variable {α : Type} {ps qs : List Part} {g : State → State} {c t : Core} {d : Instruction}

theorem eq_of_same (h : ∀ p, Part.Same c t p) : t = c := by
  obtain ⟨⟨⟩, _⟩ := c
  obtain ⟨⟨⟩, _⟩ := t
  rw [Core.mk.injEq, State.mk.injEq]
  exact ⟨⟨h .pc, h .sp, h .i, h .v, h .stack, h .keys, h .delayTimer, h .soundTimer, h .blocking,
    h .keyTarget, h .draw, h .halted, h .quit, h .screen, h .random⟩, h .bus⟩

/-- The core with another state on the same bus. -/
def alter (g : State → State) (c : Core) : Core := ⟨g c.state, c.bus⟩

/-- A change of the state that is confined to parts leaves all others as they are, and what it makes
of these does not depend on the others. -/
structure Confined (ps : List Part) (g : State → State) : Prop where
  changes : ∀ c, ChangesOnly ps c (alter g c)
  within : ∀ c t, (∀ p ∈ ps, p.Same c t) → ∀ p ∈ ps, p.Same (alter g c) (alter g t)

/-- A change passes by an action that overlooks all it is confined to and leaves it alone. -/
theorem Confined.passes (hg : Confined ps g) {act : Exec α} (ho : Overlooks ps act)
    (hw : Writes qs act) (hapart : ∀ p ∈ ps, p ∉ qs) (c : Core) : Passes (alter g) act c := by
  have hview : ChangesOnly ps c = ChangesOnly ps (alter g c) := changesOnly_eq.2 (hg.changes c)
  -- a part inside is as the change made it on both sides, and one outside as the action left it
  have hsame (t u : Core) (ht : ChangesOnly qs c t) (hu : ChangesOnly qs (alter g c) u)
      (htu : ChangesOnly ps t u) : u = alter g t := by
    apply eq_of_same
    intro p
    by_cases hp : p ∈ ps
    · have hbefore : ∀ p ∈ ps, p.Same c t := fun p hp => ht p (hapart p hp)
      have hinside : p.Same (alter g c) (alter g t) := hg.within c t hbefore p hp
      have hleft : p.Same (alter g c) u := hu p (hapart p hp)
      exact Part.same_trans hinside.symm hleft
    · exact ((hg.changes t).symm.trans htu) p hp
  unfold Passes
  cases hr : act c with
  | ok a t =>
    obtain ⟨u, hu, htu⟩ := ho.ok hview hr
    rw [hu]
    exact .ok (hsame t u ((hw c).ok hr) ((hw (alter g c)).ok hu) (changesOnly_eq.1 htu))
  | error f t =>
    obtain ⟨u, hu, htu⟩ := ho.error hview hr
    rw [hu]
    exact .error (hsame t u ((hw c).error hr) ((hw (alter g c)).error hu) (changesOnly_eq.1 htu))

theorem Confined.execute (hg : Confined ps g) (hreads : ∀ p ∈ ps, p ∉ d.kind.reads)
    (hwrites : ∀ p ∈ ps, p ∉ d.kind.writes) (c : Core) : Passes (alter g) (Core.execute d) c :=
  hg.passes (execute_overlooks d fun p hp hin => hreads p hin hp) (execute_writes d) hwrites c

theorem tick_confined : Confined [.delayTimer, .soundTimer] State.tick where
  changes c := by simp [changesOnly_iff, alter, State.tick]
  within c t h p hp := by
    have hdelay : t.state.delayTimer = c.state.delayTimer := h .delayTimer (by decide)
    have hsound : t.state.soundTimer = c.state.soundTimer := h .soundTimer (by decide)
    obtain rfl | rfl : p = .delayTimer ∨ p = .soundTimer := by simpa using hp
    · exact congrArg State.countDown hdelay
    · exact congrArg State.countDown hsound

theorem execute_tick (h : d.kind ∉ Kind.timed) (c : Core) : Passes (alter State.tick) (execute d) c := by
  apply tick_confined.execute
  · cases hk : d.kind <;> simp_all [Kind.reads, Kind.timed]
  · cases hk : d.kind <;> simp_all [Kind.writes, Kind.timed]

/-- The state with a key down or up. -/
def press {k : Nat} (hk : k < 16) (down : Bool) (s : State) : State :=
  { s with keys := s.keys.set k down hk }

theorem press_confined {k : Nat} (hk : k < 16) (down : Bool) : Confined [.keys] (press hk down) where
  changes c := by simp [changesOnly_iff, alter, press]
  within c t h p hp := by
    have hkeys : t.state.keys = c.state.keys := h .keys (by decide)
    obtain rfl := List.mem_singleton.1 hp
    exact congrArg (fun keys : Vector Bool 16 => keys.set k down hk) hkeys

theorem read_passes {view : State → α} (h : view (g c.state) = view c.state) :
    Passes (alter g) (read view) c := by
  rw [Passes, read_apply, read_apply, alter, h]
  exact .ok rfl

theorem fail_passes {cause : State → Fault} (h : cause (g c.state) = cause c.state) :
    Passes (alter g) (fail cause : Exec α) c := by
  rw [Passes, fail_apply, fail_apply, alter, h]
  exact .error rfl

/-- Another key than the one asked for may as well be pressed afterwards. -/
theorem keyDown_press {k : Fin 16} {x : Fin 16} (down : Bool)
    (h : slot? (c.state.reg x) ≠ some k) : Passes (alter (press k.isLt down)) (keyDown x) c := by
  apply Passes.bind (read_passes rfl)
  intro key t hr
  obtain ⟨rfl, rfl⟩ := EStateM.Result.ok.inj hr
  by_cases hout : 16 ≤ c.state.reg x
  · rw [if_pos hout]
    exact fail_passes rfl
  · rw [if_neg hout]
    cases hslot : slot? (c.state.reg x) with
    | none => exact fail_passes rfl
    | some j =>
      have hne : k ≠ j := fun he => h (he ▸ hslot)
      exact read_passes (Vector.getElem_set_ne k.isLt j.isLt fun he => hne (Fin.ext he))

theorem execute_press {k : Fin 16} (down : Bool)
    (h : d.kind ∈ Kind.asking → slot? (c.state.reg d.x) ≠ some k) :
    Passes (alter (press k.isLt down)) (execute d) c := by
  by_cases hk : d.kind ∈ Kind.asking
  · have hdown := keyDown_press down (h hk)
    obtain hk | hk : d.kind = .skipKeyDown ∨ d.kind = .skipKeyUp := by simpa [Kind.asking] using hk
    · rw [execute, hk]
      exact hdown.bind fun held t _ => .ok rfl
    · rw [execute, hk]
      exact hdown.bind fun held t _ => .ok rfl
  · apply (press_confined k.isLt down).execute
    · cases hkind : d.kind <;> simp_all [Kind.reads, Kind.asking]
    · cases hkind : d.kind <;> simp_all [Kind.writes, Kind.asking]

end Core

namespace Machine

variable {ps : List Part} {g : State → State} {m : Machine}

def alter (g : State → State) (m : Machine) : Machine := { m with core := m.core.alter g }

/-- A change passes by a cycle if it passes by the instruction and is confined to parts that the cycle
does not look at before. -/
theorem step_passes (hg : Core.Confined ps g) (hps : ∀ p ∈ Core.cycleReads, p ∉ ps)
    (hd : ∀ d b, m.Fetching d → Passes (Core.alter g) (Core.execute d) ⟨m.state, b⟩) :
    Passes (alter g) step m := by
  have hunseen : Core.Unseen (fun c t => t = c.alter g) := by
    have hchanges := Core.ChangesOnly.unseen hps
    constructor
    · exact fun c t h => h ▸ hchanges.pc c _ (hg.changes c)
    · exact fun c t h => h ▸ hchanges.blocking c _ (hg.changes c)
    · exact fun c t h => h ▸ hchanges.halted c _ (hg.changes c)
    · exact fun c t h => h ▸ hchanges.quit c _ (hg.changes c)
    · exact fun c t h => h ▸ rfl
    · exact fun c t h b => h ▸ rfl
  have hlike : Like (fun c t => t = c.alter g) m (m.alter g) := ⟨rfl, rfl, rfl, rfl, rfl⟩
  have hstep := step_like hunseen hlike fun d b ha hp hr => hd d b ⟨ha, hp, b, hr⟩
  refine hstep.imp fun t u h => ?_
  obtain ⟨hcore, hseed, hcycles, hfetched, htrace⟩ := h
  rw [alter, ← hcore, ← hseed, ← hcycles, ← hfetched, ← htrace]

end Machine

namespace HostAction

/-- What an action answers or fails with, whatever it leaves. -/
def answered {ε σ α : Type} : EStateM.Result ε σ α → Except ε α
  | .ok a _ => .ok a
  | .error f _ => .error f

/-- Two actions answer the same in either order, or fail alike, and leave the same machine. -/
structure CommuteAt (a b : HostAction) (m : Machine) : Prop where
  first : answered (a.act m) = answered (a.act (left (b.act m)))
  second : answered (b.act (left (a.act m))) = answered (b.act m)
  machine : left (b.act (left (a.act m))) = left (a.act (left (b.act m)))

variable {a b : HostAction} {m : Machine} {g : State → State}

/-- An action that does nothing but change the state commutes with one that the change passes by. -/
theorem CommuteAt.of_passes {reply : Reply} (ha : ∀ m, a.act m = .ok reply (m.alter g))
    (hb : Passes (Machine.alter g) b.act m) : a.CommuteAt b m := by
  unfold Passes at hb
  cases hr : b.act m with
  | ok r t =>
    rw [hr] at hb
    obtain ⟨u, hu, rfl⟩ := hb.of_ok
    constructor <;> simp only [hr, ha, hu, left, answered]
  | error f t =>
    rw [hr] at hb
    obtain ⟨u, hu, rfl⟩ := hb.of_error
    constructor <;> simp only [hr, ha, hu, left, answered]

/-- An action that is refused on every machine commutes with all others. -/
theorem CommuteAt.of_refused {f : Fault} (ha : ∀ m, a.act m = .error f m) : a.CommuteAt b m := by
  constructor
  · rw [ha, ha, answered, answered]
  · rw [ha, left]
  · rw [ha, ha, left, left]

theorem tick_commutes (h : ∀ d, m.Fetching d → d.kind ∉ Kind.timed) : tick.CommuteAt step m := by
  have hstep : Passes (Machine.alter State.tick) Machine.step m :=
    Machine.step_passes Core.tick_confined (by decide) fun d b hd => Core.execute_tick (h d hd) _
  exact .of_passes (fun _ => rfl) (hstep.map Reply.report)

theorem setKey_commutes {key : Int} (down : Bool)
    (h : ∀ d, m.Fetching d → d.kind ∈ Kind.asking → ∀ k : Fin 16, key = k.val →
      slot? (m.state.reg d.x) ≠ some k) : (setKey key down).CommuteAt step m := by
  by_cases hkey : 0 ≤ key ∧ key < 16
  · let k : Fin 16 := ⟨key.toNat, slot_lt hkey⟩
    have hk : key = k.val := by
      dsimp only [k]
      omega
    have hstep : Passes (Machine.alter (Core.press k.isLt down)) Machine.step m :=
      Machine.step_passes (Core.press_confined k.isLt down) (by decide) fun d b hd =>
        Core.execute_press down fun hasks => h d hd hasks k hk
    have hset (m : Machine) :
        (setKey key down).act m = .ok .done (m.alter (Core.press k.isLt down)) := by
      rw [act, Machine.setKey, dif_pos hkey]
      rfl
    exact .of_passes hset (hstep.map Reply.report)
  · have hset (m : Machine) : (setKey key down).act m = .error (.hostKey key) m := by
      rw [act, Machine.setKey, dif_neg hkey]
      rfl
    exact .of_refused hset

end HostAction

/-- A value stands for the key of its number, or, where it is negative, for one counted back from the
last. -/
theorem slot?_ne_key {value key : Int} {k : Fin 16} (hk : key = k.val) (h : value ≠ key)
    (hback : value < 0 → value + 16 ≠ key) : slot? value ≠ some k := by
  intro hslot
  unfold slot? at hslot
  split_ifs at hslot with hin hneg
  · have hval := congrArg Fin.val (Option.some.inj hslot)
    dsimp only at hval
    omega
  · have hval := congrArg Fin.val (Option.some.inj hslot)
    dsimp only at hval
    omega

/-- A cycle may change places with a tick unless it has to do with the timers, and with a key unless it
asks for this key. -/
theorem session_commutes {b : Bus} {seed : Int} {m₀ : Machine} (h₀ : Machine.create b seed = .ok m₀)
    (actions : List HostAction) :
    let m := session actions m₀
    ((∀ d, m.Fetching d → d.kind ∉ [.readDelay, .writeDelay, .writeSound]) →
      HostAction.tick.CommuteAt .step m) ∧
    ∀ key down, (∀ d, m.Fetching d → d.kind ∈ [.skipKeyDown, .skipKeyUp] →
        m.state.reg d.x ≠ key ∧
          (b.layout.MemoryOnly ∨ 0 ≤ m.state.reg d.x ∨ m.state.reg d.x ≠ key - 16)) →
      (HostAction.setKey key down).CommuteAt .step m := by
  intro m
  refine ⟨HostAction.tick_commutes, fun key down h => ?_⟩
  apply HostAction.setKey_commutes down
  intro d hd hasks k hk
  obtain ⟨hne, hback⟩ := h d hd hasks
  refine slot?_ne_key hk hne fun hneg => ?_
  obtain hmemory | hreg | hback := hback
  · have hsound : m.Sound b.layout :=
      session_keeps (fun a _ => a.act_keeps hmemory) (Machine.create_sound h₀)
    have hreg : 0 ≤ m.state.reg d.x := (hsound.state.reg d.x).1
    omega
  · omega
  · omega

/-- Puts three into a register, and asks whether that key is up. -/
def askThird : HostAction := .load [0x60, 0x03, 0xE0, 0xA1]

theorem session_commutes_askThird : ∃ m₀, Machine.create Bus.blank 7 = .ok m₀ ∧
    let m := session [askThird, .step, .setKey 3 true] m₀
    m.Fetching m.next ∧ m.next.kind = .skipKeyUp ∧ m.state.reg m.next.x = 3 ∧
      HostAction.tick.CommuteAt .step m ∧ (HostAction.setKey 5 true).CommuteAt .step m := by
  obtain ⟨m₀, h₀, hrun⟩ := Machine.exists_created Bus.blank 7 (fun m₀ =>
    let m := session [askThird, .step, .setKey 3 true] m₀
    decide (m.state.terminal = false ∧ m.state.blocking = false ∧ m.state.Fetchable ∧
      m.next.kind = .skipKeyUp ∧ m.state.reg m.next.x = 3)) (by decide +kernel)
  obtain ⟨hterm, hblocking, hp, hk, hreg⟩ := of_decide_eq_true hrun
  have hmemory : Bus.blank.layout.MemoryOnly := Bus.blank_oneMemory.memoryOnly
  have hsound : (session [askThird, .step, .setKey 3 true] m₀).Sound Bus.blank.layout :=
    session_keeps (fun a _ => a.act_keeps hmemory) (Machine.create_sound h₀)
  obtain ⟨htick, hkey⟩ := session_commutes h₀ [askThird, .step, .setKey 3 true]
  refine ⟨m₀, h₀, ?_⟩
  generalize session [askThird, .step, .setKey 3 true] m₀ = m at *
  intro _
  have hone : m.bus.layout.OneMemory := hsound.layout ▸ Bus.blank_oneMemory
  have hnext {d : Instruction} (hd : m.Fetching d) : d = m.next := hd.eq_next hone
  refine ⟨Machine.fetching_next hone ⟨hterm, hblocking⟩ hp, hk, hreg, htick fun d hd => ?_, ?_⟩
  · rw [hnext hd, hk]
    decide
  · apply hkey
    intro d hd _
    rw [hnext hd, hreg]
    exact ⟨by decide, .inl hmemory⟩

end SpriteVM
