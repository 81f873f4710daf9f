import SpriteVM.Proofs.Machine.Delivery
import SpriteVM.Proofs.Machine.Report
import SpriteVM.Proofs.Machine.Transfer

namespace SpriteVM

namespace Core

theorem upTo_eq (x : Fin 16) : upTo x = (List.range (x.val + 1)).map (Fin.ofNat 16) := by
  revert x
  decide

/-- The register at each place. -/
theorem getElem?_upTo {r x : Fin 16} (h : r ≤ x) : (upTo x)[r.val]? = some r := by
  have hlt : r.val < x.val + 1 := by
    rw [Fin.le_def] at h
    omega
  simp [upTo_eq, hlt]

/-- What is worked out for the registers to `x` and their numbers, in ascending order. -/
theorem map_upTo {α : Type} (x : Fin 16) (f : Fin 16 → Int → α) :
    (upTo x).map (fun r => f r r.val) =
      (List.range (x.val + 1)).map fun (k : Nat) => f (Fin.ofNat 16 k) k := by
  rw [upTo_eq, List.map_map]
  refine List.map_congr_left fun k hk => ?_
  have hval : (Fin.ofNat 16 k).val = k := by
    rw [List.mem_range] at hk
    rw [Fin.val_ofNat]
    omega
  rw [Function.comp_apply, hval]

variable {L : Layout} {c t : Core} {d : Instruction}

/-- A store that ends has written its bytes, and changed no register. -/
theorem execute_stored (hb : c.bus.layout.OneMemory) (hi : 0 ≤ c.state.i)
    (hv : ∀ r, 0 ≤ c.state.reg r ∧ c.state.reg r ≤ 255) (hk : d.kind = .storeRegisters)
    (h : execute d c = .ok () t) :
    Written c.state.i ((upTo d.x).map c.state.reg) c.bus.byte t.bus.byte ∧
      t.state.v = c.state.v ∧ t.state.i = c.state.i := by
  have hwrites := (execute_writes d c).ok h
  refine ⟨?_, hwrites .v (by simp [hk, Kind.writes]), hwrites .i (by simp [hk, Kind.writes])⟩
  have hexec : Ends (execute d)
      (fun _ t => Written c.state.i ((upTo d.x).map c.state.reg) c.bus.byte t.bus.byte)
      (fun _ _ => True) c := by
    have hdo : execute d = (do storeRegisters d.x; advance false) := by rw [execute, hk]
    rw [hdo, ends_bind]
    exact (storeRegisters_writesFrom hb hi hv d.x).imp (fun _ _ hw => hw) fun _ _ _ => trivial
  exact hexec.ok h

/-- A load that ends has set its registers, and changed no byte. -/
theorem execute_loaded (hb : c.bus.layout.OneMemory) (hi : 0 ≤ c.state.i)
    (hk : d.kind = .loadRegisters) (hfits : c.state.i + d.x.val ≤ 0xFFF) (h : execute d c = .ok () t) :
    t.bus.byte = c.bus.byte ∧ t.state.i = c.state.i ∧ ∀ r : Fin 16, t.state.reg r =
      if r ≤ d.x then c.bus.byte (c.state.i + r.val) else c.state.reg r := by
  have hwrites := (execute_writes d c).ok h
  have hexec : Ends (execute d) (fun _ t => t.bus.byte = c.bus.byte ∧ ∀ r : Fin 16, t.state.reg r =
      if r ≤ d.x ∧ c.state.i + r.val ≤ 0xFFF then c.bus.byte (c.state.i + r.val) else c.state.reg r)
      (fun _ _ => True) c := by
    have hdo : execute d = (do loadRegisters d.x; advance false) := by rw [execute, hk]
    rw [hdo, ends_bind]
    exact (loadRegisters_loads hb hi d.x).imp (fun _ _ hw => hw) fun _ _ _ => trivial
  obtain ⟨hbyte, hregs⟩ := hexec.ok h
  refine ⟨hbyte, hwrites .i (by simp [hk, Kind.writes]), fun r => ?_⟩
  have hrange : r ≤ d.x ∧ c.state.i + r.val ≤ 0xFFF ↔ r ≤ d.x := by
    rw [Fin.le_def]
    omega
  rw [hregs r, if_congr hrange rfl rfl]

end Core

namespace Instruction

variable {d : Instruction}

theorem traffic_of_store (hk : d.kind = .storeRegisters) (s : State) (memory : Int → Int) :
    d.traffic s memory = (List.range (d.x.val + 1)).map fun (k : Nat) =>
      ⟨.write, s.i + k, s.reg (Fin.ofNat 16 k)⟩ := by
  unfold traffic
  rw [hk]
  exact Core.map_upTo d.x fun r n => Access.mk .write (s.i + n) (s.reg r)

theorem traffic_of_load (hk : d.kind = .loadRegisters) (s : State) (memory : Int → Int) :
    d.traffic s memory = (List.range (d.x.val + 1)).map fun (k : Nat) =>
      ⟨.read, s.i + k, memory (s.i + k)⟩ := by
  unfold traffic
  rw [hk]
  exact Core.map_upTo d.x fun _ n => Access.mk .read (s.i + n) (memory (s.i + n))

end Instruction

namespace Machine

variable {L : Layout} {k : Kind} {x : Fin 16} {m : Machine} {d : Instruction} {b : Bus} {c : Core}

/-- The next cycle executes an instruction of this kind on this register. -/
def About (m : Machine) (k : Kind) (x : Fin 16) : Prop := ∃ d, m.Fetching d ∧ d.kind = k ∧ d.x = x

instance (m : Machine) : Decidable m.Active := inferInstanceAs (Decidable (_ ∧ _))

theorem about_next (hb : m.bus.layout.OneMemory)
    (h : m.Active ∧ m.state.Fetchable ∧ m.next.kind = k ∧ m.next.x = x) : m.About k x :=
  ⟨m.next, fetching_next hb h.1 h.2.1, h.2.2⟩

/-- The next cycle moves the registers to `x`, and there is memory for all of them. -/
structure Moves (L : Layout) (k : Kind) (x : Fin 16) (m : Machine) : Prop where
  sound : m.Sound L
  about : m.About k x
  fits : m.state.i + x.val ≤ 0xFFF

/-- The registers to `x` are in memory from the index on, and nothing else in it or in a register is
new. -/
structure StoredTo (x : Fin 16) (m t : Machine) : Prop where
  bytes : ∀ r ≤ x, t.bus.byte (m.state.i + r.val) = m.state.reg r
  others : ∀ a, a < m.state.i ∨ m.state.i + x.val < a → t.bus.byte a = m.bus.byte a
  registers : t.state.v = m.state.v
  index : t.state.i = m.state.i

/-- The registers to `x` hold the bytes from the index on, and nothing else in them or in memory is
new. -/
structure LoadedTo (x : Fin 16) (m t : Machine) : Prop where
  registers : ∀ r ≤ x, t.state.reg r = m.bus.byte (m.state.i + r.val)
  others : ∀ r, x < r → t.state.reg r = m.state.reg r
  memory : t.bus.byte = m.bus.byte
  index : t.state.i = m.state.i

/-- The next cycle gets into the journal with the accesses of its fetch and then these, and it reports
them unless a hook fails. -/
def Logs (m : Machine) (accesses : List Access) : Prop :=
  ∃ s, s.accesses = fetchTraffic m.state.pc m.bus.byte ++ accesses ∧
    (left m.step).trace.journal = m.trace.journal.push s ∧
    (m.trace.Calm → m.step = .ok s (left m.step))

theorem logs_of_execute_ok (ha : m.Active) (hp : m.state.Fetchable)
    (hr : readInstruction m.state.pc m.cleared.bus = .ok d b)
    (he : Core.execute d ⟨m.state, b⟩ = .ok () c) : m.Logs (d.traffic m.state m.bus.byte) := by
  obtain ⟨hlog, hbyte⟩ := readInstruction_log hr
  have hexec : c.bus.log = b.log ++ d.traffic m.state b.byte := (Core.execute_log d ⟨m.state, b⟩).ok he
  have haccesses : c.bus.log = fetchTraffic m.state.pc m.bus.byte ++ d.traffic m.state m.bus.byte := by
    rw [hexec, hlog, hbyte]
    rfl
  have hcompletes : m.Completes d c := ⟨ha, hp, b, hr, he⟩
  refine ⟨m.report d c, haccesses, hcompletes.told.2, fun hcalm => ?_⟩
  have houtcome := hcompletes.outcome
  rwa [hcalm.failure?_eq] at houtcome

/-- With memory for all its registers a transfer ends. -/
theorem Moves.executes (hL : L.OneMemory) (h : m.Moves L k x)
    (hk : k = .storeRegisters ∨ k = .loadRegisters) :
    ∃ d b c, m.Active ∧ m.state.Fetchable ∧ readInstruction m.state.pc m.cleared.bus = .ok d b ∧
      Core.execute d ⟨m.state, b⟩ = .ok () c ∧ d.kind = k ∧ d.x = x ∧ b.layout.OneMemory ∧
      b.byte = m.bus.byte := by
  obtain ⟨d, ⟨ha, hp, b, hr⟩, rfl, rfl⟩ := h.about
  have hlayout : b.layout = L := (readInstruction_explained hr).layout.trans h.sound.layout
  have hready : Core.Ready L ⟨m.state, b⟩ := ⟨⟨h.sound.state, hp.1.2⟩, hlayout⟩
  have hcause := Core.execute_cause hL d hready
  cases he : Core.execute d ⟨m.state, b⟩ with
  | ok _ c =>
    exact ⟨d, b, c, ha, hp, hr, he, rfl, rfl, hlayout ▸ hL, (readInstruction_log hr).2⟩
  | error f c =>
    have hfar := ((InstructionFault.transfer_iff hk).1 (hcause.error he)).1
    exact absurd h.fits (by simpa using hfar)

theorem step_stores (hL : L.OneMemory) (h : m.Moves L .storeRegisters x) :
    StoredTo x m (left m.step) ∧ m.Logs ((List.range (x.val + 1)).map fun (k : Nat) =>
      ⟨.write, m.state.i + k, m.state.reg (Fin.ofNat 16 k)⟩) := by
  obtain ⟨d, b, c, ha, hp, hr, he, hk, rfl, hb, hbyte⟩ := h.executes hL (.inl rfl)
  have hlogs := logs_of_execute_ok ha hp hr he
  obtain ⟨hwritten, hv, hi⟩ :=
    Core.execute_stored (c := ⟨m.state, b⟩) hb h.sound.state.index.1 h.sound.state.reg hk he
  obtain ⟨trace, hleft⟩ := left_step_of_execute_ok ha hp hr he
  have hmemory : (left m.step).bus.byte = c.bus.byte := by
    rw [hleft]
    rfl
  have hfits := h.fits
  refine ⟨⟨fun r hr => ?_, fun a ha => ?_, ?_, ?_⟩, ?_⟩
  · rw [Fin.le_def] at hr
    have hget : ((Core.upTo d.x).map m.state.reg)[r.val]? = some (m.state.reg r) := by
      rw [List.getElem?_map, Core.getElem?_upTo hr, Option.map_some]
    rw [hmemory]
    exact hwritten.inside r.val _ hget (by dsimp only; omega)
  · have hlength : ((Core.upTo d.x).map m.state.reg).length = d.x.val + 1 := by
      rw [List.length_map, Core.length_upTo]
    rw [hmemory, hwritten.outside a (by dsimp only; omega), hbyte]
  · rw [hleft]
    exact hv
  · rw [hleft]
    exact hi
  · rwa [Instruction.traffic_of_store hk] at hlogs

theorem step_loads (hL : L.OneMemory) (h : m.Moves L .loadRegisters x) :
    LoadedTo x m (left m.step) ∧ m.Logs ((List.range (x.val + 1)).map fun (k : Nat) =>
      ⟨.read, m.state.i + k, m.bus.byte (m.state.i + k)⟩) := by
  obtain ⟨d, b, c, ha, hp, hr, he, hk, rfl, hb, hbyte⟩ := h.executes hL (.inr rfl)
  have hlogs := logs_of_execute_ok ha hp hr he
  obtain ⟨hmemory, hi, hregs⟩ :=
    Core.execute_loaded (c := ⟨m.state, b⟩) hb h.sound.state.index.1 hk h.fits he
  obtain ⟨trace, hleft⟩ := left_step_of_execute_ok ha hp hr he
  have hreg (r : Fin 16) : (left m.step).state.reg r =
      if r ≤ d.x then m.bus.byte (m.state.i + r.val) else m.state.reg r := by
    rw [hleft, ← hbyte]
    exact hregs r
  refine ⟨⟨fun r hr => ?_, fun r hr => ?_, ?_, ?_⟩, ?_⟩
  · rw [hreg, if_pos hr]
  · rw [hreg, if_neg (by omega)]
  · rw [hleft, ← hbyte]
    exact hmemory
  · rw [hleft]
    exact hi
  · rwa [Instruction.traffic_of_load hk] at hlogs

/-- A store and a load of the same registers undo each other, whatever comes between them that leaves
the index and the bytes alone; these may be those of the instructions themselves. -/
theorem transfer_roundTrip (hL : L.OneMemory) (x : Fin 16) :
    (∀ m : Machine, m.Moves L .storeRegisters x → StoredTo x m (left m.step) ∧
        m.Logs ((List.range (x.val + 1)).map fun (k : Nat) =>
          ⟨.write, m.state.i + k, m.state.reg (Fin.ofNat 16 k)⟩)) ∧
      (∀ m : Machine, m.Moves L .loadRegisters x → LoadedTo x m (left m.step) ∧
        m.Logs ((List.range (x.val + 1)).map fun (k : Nat) =>
          ⟨.read, m.state.i + k, m.bus.byte (m.state.i + k)⟩)) ∧
      (∀ m m' : Machine, m.Moves L .storeRegisters x → m'.Moves L .loadRegisters x →
        m'.state.i = m.state.i →
        (∀ a, m.state.i ≤ a → a ≤ m.state.i + x.val → m'.bus.byte a = (left m.step).bus.byte a) →
        ∀ r ≤ x, (left m'.step).state.reg r = m.state.reg r) ∧
      ∀ m : Machine, m.Moves L .loadRegisters x → (left m.step).About .storeRegisters x →
        (left (left m.step).step).bus.byte = m.bus.byte := by
  refine ⟨fun m h => step_stores hL h, fun m h => step_loads hL h, fun m m' h h' hi hbytes r hr => ?_,
    fun m h habout => ?_⟩
  · have hstored := (step_stores hL h).1
    have hloaded := (step_loads hL h').1
    have hle : (r.val : Int) ≤ x.val := by
      rw [Fin.le_def] at hr
      omega
    rw [hloaded.registers r hr, hi, hbytes _ (by omega) (by omega), hstored.bytes r hr]
  · have hloaded := (step_loads hL h).1
    have hsound : (left m.step).Sound L := (step_keeps hL.memoryOnly).left h.sound
    have hfits : (left m.step).state.i + x.val ≤ 0xFFF := hloaded.index ▸ h.fits
    have hstored := (step_stores hL ⟨hsound, habout, hfits⟩).1
    funext a
    by_cases hin : m.state.i ≤ a ∧ a ≤ m.state.i + x.val
    · -- such a byte was loaded, and is now put back
      obtain ⟨r, hr, rfl⟩ : ∃ r ≤ x, a = m.state.i + r.val :=
        ⟨⟨(a - m.state.i).toNat, by omega⟩, Fin.le_def.2 (by dsimp only; omega), by dsimp only; omega⟩
      rw [← hloaded.registers r hr, ← hstored.bytes r hr, hloaded.index]
    · rw [hstored.others a (by rw [hloaded.index]; omega), hloaded.memory]

/-- Up to a store of two registers over itself. Behind it one of them is cleared, and then both are loaded
and stored again. -/
def storing : List HostAction :=
  [.load [0x60, 0x12, 0x61, 0x34, 0xA2, 0x06, 0xF1, 0x55, 0x60, 0x00, 0xF1, 0x65, 0xF1, 0x55],
    .step, .step, .step]

theorem transfer_roundTrip_storing :
    Bus.blank.layout.OneMemory ∧ ∃ m₀, Machine.create Bus.blank 7 = .ok m₀ ∧
      let m := session storing m₀
      let m' := session (storing ++ [.step, .step]) m₀
      (left m.step).bus.byte 0x206 = 0x12 ∧ m'.state.reg 0 = 0 ∧
        (left m'.step).state.reg 0 = 0x12 ∧ (left m'.step).state.reg 1 = 0x34 ∧
        (left (left m'.step).step).bus.byte = m'.bus.byte := by
  obtain ⟨m₀, h₀, hrun⟩ := Machine.exists_created Bus.blank 7 (fun m₀ =>
    let m := session storing m₀
    let m' := session (storing ++ [.step, .step]) m₀
    let t := left m'.step
    decide (m.Active ∧ m.state.Fetchable ∧ m.next.kind = .storeRegisters ∧ m.next.x = 1) &&
      decide (m'.Active ∧ m'.state.Fetchable ∧ m'.next.kind = .loadRegisters ∧ m'.next.x = 1) &&
      decide (t.Active ∧ t.state.Fetchable ∧ t.next.kind = .storeRegisters ∧ t.next.x = 1) &&
      decide (m.state.i = 0x206 ∧ m'.state.i = 0x206 ∧ m.state.reg 0 = 0x12 ∧ m.state.reg 1 = 0x34 ∧
        m'.state.reg 0 = 0 ∧ m'.bus.byte 0x206 = (left m.step).bus.byte 0x206 ∧
        m'.bus.byte 0x207 = (left m.step).bus.byte 0x207)) (by decide +kernel)
  simp only [Bool.and_eq_true, decide_eq_true_eq] at hrun
  obtain ⟨⟨⟨hstore, hload⟩, hback⟩, hi, hi', hfirst, hsecond, hclear, hlow, hhigh⟩ := hrun
  have hone := Bus.blank_oneMemory
  have hsound (actions : List HostAction) : (session actions m₀).Sound Bus.blank.layout :=
    session_keeps (fun a _ => a.act_keeps hone.memoryOnly) (Machine.create_sound h₀)
  have hmoves : (session storing m₀).Moves Bus.blank.layout .storeRegisters 1 :=
    ⟨hsound _, about_next ((hsound _).layout ▸ hone) hstore, by rw [hi]; decide⟩
  have hmoves' : (session (storing ++ [.step, .step]) m₀).Moves Bus.blank.layout .loadRegisters 1 :=
    ⟨hsound _, about_next ((hsound _).layout ▸ hone) hload, by rw [hi']; decide⟩
  have ht := (step_keeps hone.memoryOnly).left hmoves'.sound
  obtain ⟨hstores, -, hrestores, hputs⟩ := transfer_roundTrip hone 1
  have hbytes := (hstores _ hmoves).1.bytes 0 (by decide)
  have hregs := hrestores _ _ hmoves hmoves' (hi'.trans hi.symm) fun a hlo hhi => by
    have ha : a = 0x206 ∨ a = 0x207 := by
      rw [hi] at hlo hhi
      simp at hhi
      omega
    rcases ha with rfl | rfl
    · exact hlow
    · exact hhigh
  refine ⟨hone, m₀, h₀, ?_, hclear, ?_, ?_, ?_⟩
  · simpa [hi, hfirst] using hbytes
  · exact (hregs 0 (by decide)).trans hfirst
  · exact (hregs 1 (by decide)).trans hsecond
  · exact hputs _ hmoves' (about_next (ht.layout ▸ hone) hback)

end Machine

end SpriteVM
