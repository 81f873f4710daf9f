import SpriteVM.Proofs.Bus.Written
import SpriteVM.Proofs.Machine.InstructionFault

namespace SpriteVM

/-- The bytes an instruction stores from the index on, begun in this state. -/
def Instruction.stored (d : Instruction) (s : State) : List Int :=
  match d.kind with
  | .bcd => [s.reg d.x / 100, s.reg d.x / 10 % 10, s.reg d.x % 10]
  | .storeRegisters => (Core.upTo d.x).map s.reg
  | _ => []

namespace Core

variable {c : Core} {address d : Int} {data : List Int}

/-- However the action ends, it has written these bytes from the address on as far as memory goes. -/
def WritesFrom (address : Int) (data : List Int) (act : Exec Unit) (c : Core) : Prop :=
  Ends act (fun _ t => Written address data c.bus.byte t.bus.byte)
    (fun _ t => Written address data c.bus.byte t.bus.byte) c

theorem WritesFrom.nil (address : Int) (c : Core) : WritesFrom address [] (pure ()) c :=
  Written.nil address c.bus.byte

/-- A byte, and then those behind it. -/
theorem WritesFrom.cons {next : Exec Unit} (hb : c.bus.layout.OneMemory) (ha : 0 ≤ address)
    (hd : 0 ≤ d ∧ d ≤ 255)
    (hn : ∀ b : Bus, b.layout.OneMemory → WritesFrom (address + 1) data next ⟨c.state, b⟩) :
    WritesFrom address (d :: data) (do onBus (Bus.write address d); next) c := by
  have hone := Bus.ends_write_one hb address hd
  rw [WritesFrom, ends_bind, ends_onBus]
  refine Ends.of_forall (fun _ b hw => ?_) fun f b hw => ?_
  · obtain ⟨hin, hlayout⟩ := hone.ok hw
    have hrest := hn b (hlayout ▸ hb)
    rw [WritesFrom, Bus.write_byte hb hw] at hrest
    exact hrest.mono fun _ h => h.cons hin.2
  · obtain ⟨hout, -, rfl⟩ := hone.error hw
    exact Written.beyond (Bus.beyond_of_outside ha hout) _ _

theorem storeRun_writesFrom (hb : c.bus.layout.OneMemory) {base : Int} (hbase : 0 ≤ base)
    (hv : ∀ r, 0 ≤ c.state.reg r ∧ c.state.reg r ≤ 255) {rs : List (Fin 16)} {k n : Nat}
    (hrs : rs.map Fin.val = List.range' k n) :
    WritesFrom (base + k) (rs.map c.state.reg) (storeRun base rs) c := by
  induction rs generalizing k n c with
  | nil => exact WritesFrom.nil _ c
  | cons r rs ih =>
    cases n with
    | zero => simp at hrs
    | succ n =>
      rw [List.map_cons, List.range'_succ] at hrs
      obtain ⟨rfl, hrs⟩ := List.cons.inj hrs
      rw [storeRun, WritesFrom, ends_bind, ends_read]
      refine WritesFrom.cons hb (by omega) (hv r) fun b hb' => ?_
      have hrest := ih (c := ⟨c.state, b⟩) hb' hv hrs
      rwa [Int.natCast_add, ← Int.add_assoc] at hrest

theorem length_upTo (x : Fin 16) : (upTo x).length = x.val + 1 := by
  simpa using congrArg List.length (map_val_upTo x)

theorem storeRegisters_writesFrom (hb : c.bus.layout.OneMemory) (hi : 0 ≤ c.state.i)
    (hv : ∀ r, 0 ≤ c.state.reg r ∧ c.state.reg r ≤ 255) (x : Fin 16) :
    WritesFrom c.state.i ((upTo x).map c.state.reg) (storeRegisters x) c := by
  have hstore := storeRun_writesFrom hb hi hv (map_val_upTo x)
  rwa [Int.natCast_zero, Int.add_zero] at hstore

theorem storeDecimal_writesFrom (hb : c.bus.layout.OneMemory) (hi : 0 ≤ c.state.i) {x : Fin 16}
    (hv : 0 ≤ c.state.reg x ∧ c.state.reg x ≤ 255) :
    WritesFrom c.state.i [c.state.reg x / 100, c.state.reg x / 10 % 10, c.state.reg x % 10]
      (storeDecimal x) c := by
  rw [storeDecimal, WritesFrom, ends_bind, ends_read, ends_bind, ends_read]
  refine WritesFrom.cons hb hi (by omega) fun b hb' => ?_
  refine WritesFrom.cons hb' (by omega) (by omega) fun b' hb'' => ?_
  rw [← bind_pure_unit (x := onBus _), show c.state.i + 1 + 1 = c.state.i + 2 by omega]
  exact WritesFrom.cons hb'' (by omega) (by omega) fun b' _ => WritesFrom.nil _ _

theorem onRead_byte (address : Int) (c : Core) :
    Ends (onBus (Bus.read address)) (fun _ t => t.bus.byte = c.bus.byte)
      (fun _ t => t.bus.byte = c.bus.byte) c := by
  rw [ends_onBus]
  refine Ends.of_forall (fun _ b hr => (Bus.read_log hr).2) fun f b hr => ?_
  rw [Bus.read_eq_error hr]

/-- However a load of consecutive registers ends, those were loaded whose bytes memory has. -/
theorem loadRun_loads (hb : c.bus.layout.OneMemory) {base : Int} (hbase : 0 ≤ base)
    {rs : List (Fin 16)} {k n : Nat} (hrs : rs.map Fin.val = List.range' k n) :
    let Q (t : Core) := t.bus.byte = c.bus.byte ∧ ∀ r : Fin 16, t.state.reg r =
      if k ≤ r.val ∧ r.val < k + n ∧ base + r.val ≤ 0xFFF then c.bus.byte (base + r.val)
      else c.state.reg r
    Ends (loadRun base rs) (fun _ t => Q t) (fun _ t => Q t) c := by
  induction rs generalizing k n c with
  | nil =>
    obtain rfl : 0 = n := by simpa using congrArg List.length hrs
    refine ⟨rfl, fun r => ?_⟩
    rw [if_neg (by omega)]
  | cons r rs ih =>
    cases n with
    | zero => simp at hrs
    | succ n =>
      rw [List.map_cons, List.range'_succ] at hrs
      obtain ⟨rfl, hrs⟩ := List.cons.inj hrs
      rw [loadRun, ends_bind, ends_onBus]
      refine (Bus.ends_read_one hb _).imp (fun value b hread => ?_) fun f b hread => ?_
      · obtain ⟨hin, rfl, rfl⟩ := hread
        have hfits := hin.2
        rw [ends_bind, ends_update]
        refine (ih (c := ⟨c.state.setReg r (c.bus.byte (base + r.val)), c.bus.record _⟩) hb hrs).mono
          fun t ht => ⟨ht.1, fun r' => (ht.2 r').trans ?_⟩
        rw [Bus.byte_record]
        by_cases he : r' = r
        · subst he
          rw [if_neg (by omega), if_pos (by omega), State.reg_setReg]
        · have hne : r'.val ≠ r.val := fun h => he (Fin.ext h)
          have hrange : r.val + 1 ≤ r'.val ∧ r'.val < r.val + 1 + n ∧ base + r'.val ≤ 0xFFF ↔
              r.val ≤ r'.val ∧ r'.val < r.val + (n + 1) ∧ base + r'.val ≤ 0xFFF := by omega
          rw [if_congr hrange rfl rfl, State.reg_setReg_of_ne _ (Ne.symm he)]
      · obtain ⟨hout, -, rfl⟩ := hread
        have hfar := Bus.beyond_of_outside (by omega) hout
        refine ⟨rfl, fun r' => ?_⟩
        rw [if_neg (by omega)]

theorem loadRegisters_loads (hb : c.bus.layout.OneMemory) (hi : 0 ≤ c.state.i) (x : Fin 16) :
    let Q (t : Core) := t.bus.byte = c.bus.byte ∧ ∀ r : Fin 16, t.state.reg r =
      if r ≤ x ∧ c.state.i + r.val ≤ 0xFFF then c.bus.byte (c.state.i + r.val) else c.state.reg r
    Ends (loadRegisters x) (fun _ t => Q t) (fun _ t => Q t) c := by
  intro Q
  have hload : Ends (loadRegisters x) _ _ c := loadRun_loads hb hi (map_val_upTo x)
  refine hload.mono fun t ht => ⟨ht.1, fun r => (ht.2 r).trans ?_⟩
  have hrange : 0 ≤ r.val ∧ r.val < 0 + (x.val + 1) ∧ c.state.i + r.val ≤ 0xFFF ↔
      r ≤ x ∧ c.state.i + r.val ≤ 0xFFF := by
    rw [Fin.le_def]
    omega
  rw [if_congr hrange rfl rfl]

theorem drawRows_byte (left top : Nat) (address : Int) (n : Nat) (c : Core) :
    Ends (drawRows left top address n) (fun _ t => t.bus.byte = c.bus.byte)
      (fun _ t => t.bus.byte = c.bus.byte) c := by
  induction n generalizing top address c with
  | zero => rfl
  | succ n ih =>
    rw [drawRows, ends_bind]
    refine (onRead_byte address c).imp (fun row t ht => ?_) fun _ _ h => h
    rw [ends_bind, ends_drawRow, ends_bind]
    exact (ih (top + 1) (address + 1) _).mono fun _ h => Eq.trans h ht

end Core

end SpriteVM
