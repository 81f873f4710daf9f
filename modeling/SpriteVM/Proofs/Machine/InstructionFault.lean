import Mathlib.Tactic.SplitIfs
import SpriteVM.Proofs.Bus.OneMemory
import SpriteVM.Proofs.Machine.Execute

namespace SpriteVM

/-- The causes for which an instruction fails in a state. A transfer that runs out of the memory
does so at its first address beyond, which is 4096. -/
inductive InstructionFault (d : Instruction) (s : State) : Fault → Prop
  | oddTarget (hk : d.kind = .jump ∨ d.kind = .call) (hn : d.nnn % 2 = 1) :
    InstructionFault d s (.targetOdd d.nnn s.pc)
  | farOffset (hk : d.kind = .jumpOffset) (hn : 0x1000 ≤ d.nnn + s.reg State.offsetRegister) :
    InstructionFault d s (.targetOutside (d.nnn + s.reg State.offsetRegister) s.pc)
  | oddOffset (hk : d.kind = .jumpOffset) (hn : d.nnn + s.reg State.offsetRegister < 0x1000)
      (ho : (d.nnn + s.reg State.offsetRegister) % 2 = 1) :
    InstructionFault d s (.targetOdd (d.nnn + s.reg State.offsetRegister) s.pc)
  | farReturn (hk : d.kind = .ret) {k : Fin 16} (hsp : s.sp = k.val + 1) (ht : s.stack.get k = 0x1000) :
    InstructionFault d s (.targetOutside 0x1000 s.pc)
  | fullStack (hk : d.kind = .call) (hn : d.nnn % 2 = 0) (hsp : s.sp = 16) :
    InstructionFault d s (.stackOverflow s.pc)
  | emptyStack (hk : d.kind = .ret) (hsp : s.sp = 0) : InstructionFault d s (.stackUnderflow s.pc)
  | noKey (hk : d.kind = .skipKeyDown ∨ d.kind = .skipKeyUp) (hx : 15 < s.reg d.x) :
    InstructionFault d s (.keyRegister (s.reg d.x) d.x s.pc)
  | decimal (hk : d.kind = .bcd) (hi : 0xFFF < s.i + 2) : InstructionFault d s (.unmapped 0x1000)
  | transfer (hk : d.kind = .storeRegisters ∨ d.kind = .loadRegisters) (hi : 0xFFF < s.i + d.x.val) :
    InstructionFault d s (.unmapped 0x1000)
  | sprite (hk : d.kind = .draw) (hn : 1 ≤ d.nibble.val)
      (hi : 0xFFF < s.i + min (d.nibble.val : Int)
        (s.screen.height - s.reg d.y % s.screen.height) - 1) :
    InstructionFault d s (.unmapped 0x1000)

namespace InstructionFault

variable {d : Instruction} {s : State} {f g : Fault}

def kinds : List Kind :=
  [.jump, .call, .jumpOffset, .ret, .skipKeyDown, .skipKeyUp, .bcd, .storeRegisters, .loadRegisters,
    .draw]

theorem kind_mem (h : InstructionFault d s f) : d.kind ∈ kinds := by
  cases h with
  | oddTarget hk | noKey hk | transfer hk => rcases hk with hk | hk <;> simp [kinds, hk]
  | farOffset hk | oddOffset hk | farReturn hk | fullStack hk | emptyStack hk | decimal hk
  | sprite hk => simp [kinds, hk]

/-- Most instructions never fail. -/
theorem never (hk : d.kind ∉ kinds) : ∀ f, ¬ InstructionFault d s f := fun _ h => hk h.kind_mem

theorem jump_iff (hk : d.kind = .jump) :
    InstructionFault d s f ↔ d.nnn % 2 = 1 ∧ f = .targetOdd d.nnn s.pc := by
  constructor
  · intro h
    cases h <;> simp_all
  · rintro ⟨hn, rfl⟩
    exact oddTarget (.inl hk) hn

theorem call_iff (hk : d.kind = .call) :
    InstructionFault d s f ↔ d.nnn % 2 = 1 ∧ f = .targetOdd d.nnn s.pc ∨
      d.nnn % 2 = 0 ∧ s.sp = 16 ∧ f = .stackOverflow s.pc := by
  constructor
  · intro h
    cases h <;> simp_all
  · rintro (⟨hn, rfl⟩ | ⟨hn, hsp, rfl⟩)
    · exact oddTarget (.inr hk) hn
    · exact fullStack hk hn hsp

theorem jumpOffset_iff (hk : d.kind = .jumpOffset) :
    InstructionFault d s f ↔
      0x1000 ≤ d.nnn + s.reg State.offsetRegister ∧
        f = .targetOutside (d.nnn + s.reg State.offsetRegister) s.pc ∨
      d.nnn + s.reg State.offsetRegister < 0x1000 ∧ (d.nnn + s.reg State.offsetRegister) % 2 = 1 ∧
        f = .targetOdd (d.nnn + s.reg State.offsetRegister) s.pc := by
  constructor
  · intro h
    cases h <;> simp_all
  · rintro (⟨hn, rfl⟩ | ⟨hn, ho, rfl⟩)
    · exact farOffset hk hn
    · exact oddOffset hk hn ho

theorem ret_iff (hk : d.kind = .ret) :
    InstructionFault d s f ↔ s.sp = 0 ∧ f = .stackUnderflow s.pc ∨
      ∃ k : Fin 16, s.sp = k.val + 1 ∧ s.stack.get k = 0x1000 ∧ f = .targetOutside 0x1000 s.pc := by
  constructor
  · intro h
    cases h with
    | emptyStack _ hsp => exact .inl ⟨hsp, rfl⟩
    | farReturn _ hsp ht => exact .inr ⟨_, hsp, ht, rfl⟩
    | _ => simp_all
  · rintro (⟨hsp, rfl⟩ | ⟨k, hsp, ht, rfl⟩)
    · exact emptyStack hk hsp
    · exact farReturn hk hsp ht

theorem key_iff (hk : d.kind = .skipKeyDown ∨ d.kind = .skipKeyUp) :
    InstructionFault d s f ↔ 15 < s.reg d.x ∧ f = .keyRegister (s.reg d.x) d.x s.pc := by
  constructor
  · intro h
    rcases hk with hk | hk <;> cases h <;> simp_all
  · rintro ⟨hx, rfl⟩
    exact noKey hk hx

theorem decimal_iff (hk : d.kind = .bcd) :
    InstructionFault d s f ↔ 0xFFF < s.i + 2 ∧ f = .unmapped 0x1000 := by
  constructor
  · intro h
    cases h <;> simp_all
  · rintro ⟨hi, rfl⟩
    exact decimal hk hi

theorem transfer_iff (hk : d.kind = .storeRegisters ∨ d.kind = .loadRegisters) :
    InstructionFault d s f ↔ 0xFFF < s.i + d.x.val ∧ f = .unmapped 0x1000 := by
  constructor
  · intro h
    rcases hk with hk | hk <;> cases h <;> simp_all
  · rintro ⟨hi, rfl⟩
    exact transfer hk hi

theorem sprite_iff (hk : d.kind = .draw) :
    InstructionFault d s f ↔ 1 ≤ d.nibble.val ∧ 0xFFF < s.i + min (d.nibble.val : Int)
      (s.screen.height - s.reg d.y % s.screen.height) - 1 ∧ f = .unmapped 0x1000 := by
  constructor
  · intro h
    cases h <;> simp_all
  · rintro ⟨hn, hi, rfl⟩
    exact sprite hk hn hi

/-- An instruction fails for one cause at a time. -/
theorem unique (hf : InstructionFault d s f) (hg : InstructionFault d s g) : f = g := by
  cases hf <;> cases hg <;> grind

end InstructionFault

namespace Core

variable {α β : Type} {L : Layout} {c : Core} {address : Int}

/-- An action that goes through `n` bytes from an address on: it fails at 4096, if it gets there. -/
def Spans (act : Exec α) (address : Int) (n : Nat) (c : Core) : Prop :=
  Ends act (fun _ _ => address + n ≤ 0x1000)
    (fun f _ => 0x1000 < address + n ∧ f = .unmapped 0x1000) c

/-- An access at one address, and then whatever goes through the bytes behind it. -/
theorem Spans.access {act : Exec α} {next : α → Exec β} {P : α → Core → Prop} {n : Nat}
    (ha : 0 ≤ address ∧ address ≤ 0x1000)
    (h : Ends act (fun a t => Bus.Inside address ∧ P a t)
      (fun f _ => ¬ Bus.Inside address ∧ f = .unmapped address) c)
    (hn : ∀ a t, address + 1 ≤ 0x1000 → P a t → Spans (next a) (address + 1) n t) :
    Spans (act >>= next) address (n + 1) c := by
  unfold Spans
  rw [ends_bind]
  refine h.imp (fun a t hat => ?_) fun f t hft => ?_
  · have hin : address + 1 ≤ 0x1000 := by
      have := hat.1.2
      omega
    refine (hn a t hin hat.2).imp (fun _ _ hs => ?_) fun _ _ hs => ?_
    · omega
    · exact ⟨by omega, hs.2⟩
  · have hfar := Bus.beyond_of_outside ha.1 hft.1
    have he : address = 0x1000 := by omega
    exact ⟨by omega, he ▸ hft.2⟩

theorem spans_nil {act : Exec α} (ha : address ≤ 0x1000) (h : ∃ a, act c = .ok a c) :
    Spans act address 0 c := by
  obtain ⟨a, hr⟩ := h
  rw [Spans, Ends, hr]
  dsimp only
  omega

/-- A byte written to the one memory. -/
theorem onWrite_one (hL : L.OneMemory) (hc : c.Ready L) (address : Int) {data : Int}
    (hd : 0 ≤ data ∧ data ≤ 255) :
    Ends (onBus (Bus.write address data))
      (fun _ t => Bus.Inside address ∧ t.state = c.state ∧ t.Ready L)
      (fun f _ => ¬ Bus.Inside address ∧ f = .unmapped address) c := by
  rw [ends_onBus]
  refine (Bus.ends_write_one (hc.layout ▸ hL) address hd).imp (fun _ b hb => ?_) fun f b hb => ?_
  · exact ⟨hb.1, rfl, hc.state, hb.2.trans hc.layout⟩
  · exact ⟨hb.1, hb.2.1⟩

/-- A byte read from the one memory. -/
theorem onRead_one (hL : L.OneMemory) (hc : c.Ready L) (address : Int) :
    Ends (onBus (Bus.read address))
      (fun d t => Bus.Inside address ∧ (0 ≤ d ∧ d ≤ 255) ∧ t.Ready L)
      (fun f _ => ¬ Bus.Inside address ∧ f = .unmapped address) c := by
  have hone : Ends (onBus (Bus.read address)) (fun _ _ => Bus.Inside address)
      (fun f _ => ¬ Bus.Inside address ∧ f = .unmapped address) c := by
    rw [ends_onBus]
    exact (Bus.ends_read_one (hc.layout ▸ hL) address).imp (fun _ _ h => h.1)
      fun _ _ h => ⟨h.1, h.2.1⟩
  exact (hone.and (ends_onRead hL.memoryOnly hc address)).imp (fun _ _ h => h) fun _ _ h => h.1

/-- A run over consecutive registers, one byte for each, as its single accesses go. -/
theorem spans_run {run : List (Fin 16) → Exec Unit} {base : Int} (hnil : run [] = pure ())
    (hcons : ∀ (r : Fin 16) rs n (c : Core), c.Ready L → 0 ≤ base + r.val ∧ base + r.val ≤ 0x1000 →
      (∀ t : Core, t.Ready L → base + r.val + 1 ≤ 0x1000 → Spans (run rs) (base + r.val + 1) n t) →
        Spans (run (r :: rs)) (base + r.val) (n + 1) c)
    (hb : 0 ≤ base) {rs : List (Fin 16)} {k n : Nat} (hrs : rs.map Fin.val = List.range' k n)
    (hk : base + k ≤ 0x1000) (hc : c.Ready L) : Spans (run rs) (base + k) n c := by
  -- the registers count up, and so do their addresses: the run ends at the first beyond 4095
  induction rs generalizing k n c with
  | nil =>
    obtain rfl : 0 = n := by simpa using congrArg List.length hrs
    rw [hnil]
    exact spans_nil hk ⟨(), rfl⟩
  | cons r rs ih =>
    cases n with
    | zero => simp at hrs
    | succ n =>
      rw [List.map_cons, List.range'_succ] at hrs
      obtain ⟨rfl, hrs⟩ := List.cons.inj hrs
      refine hcons r rs n c hc ⟨by omega, hk⟩ fun t ht hin => ?_
      have hi := ih hrs (by omega) ht
      rwa [Int.natCast_add, ← Int.add_assoc] at hi

theorem storeRun_spans (hL : L.OneMemory) {base : Int} (hb : 0 ≤ base) {rs : List (Fin 16)}
    {k n : Nat} (hrs : rs.map Fin.val = List.range' k n) (hk : base + k ≤ 0x1000)
    (hc : c.Ready L) : Spans (storeRun base rs) (base + k) n c := by
  refine spans_run rfl (fun r rs n c hc ha hrest => ?_) hb hrs hk hc
  rw [storeRun, Spans, ends_bind, ends_read]
  exact Spans.access ha (onWrite_one hL hc _ (hc.state.reg r)) fun _ t hin ht => hrest t ht.2 hin

theorem loadRun_spans (hL : L.OneMemory) {base : Int} (hb : 0 ≤ base) {rs : List (Fin 16)}
    {k n : Nat} (hrs : rs.map Fin.val = List.range' k n) (hk : base + k ≤ 0x1000)
    (hc : c.Ready L) : Spans (loadRun base rs) (base + k) n c := by
  refine spans_run rfl (fun r rs n c hc ha hrest => ?_) hb hrs hk hc
  rw [loadRun]
  refine Spans.access ha (onRead_one hL hc _) fun d t hin ht => ?_
  rw [Spans, ends_bind, ends_update]
  exact hrest _ ⟨ht.2.state.setReg r ht.1, ht.2.layout⟩ hin

theorem drawRows_spans (hL : L.OneMemory) (left top n : Nat)
    (ha : 0 ≤ address ∧ address ≤ 0x1000) (hc : c.Ready L) :
    Spans (drawRows left top address n) address n c := by
  induction n generalizing top address c with
  | zero => exact spans_nil ha.2 ⟨false, rfl⟩
  | succ n ih =>
    rw [drawRows]
    refine Spans.access ha (onRead_one hL hc address) fun row t hin ht => ?_
    rw [Spans, ends_bind, ends_drawRow, ends_bind]
    exact ih (top + 1) ⟨by omega, hin⟩ ⟨{ ht.2.state with }, ht.2.layout⟩

variable {P : Fault → Prop} {d : Instruction}

theorem Spans.endsByCause {act : Exec α} {n : Nat} (h : Spans act address n c)
    (hP : ∀ f, P f ↔ 0x1000 < address + n ∧ f = .unmapped 0x1000) : EndsByCause P act c := by
  refine h.imp (fun _ _ hn f hf => ?_) fun f _ hf => (hP f).2 hf
  have := ((hP f).1 hf).1
  omega

theorem then_advance_cause {act : Exec Unit} (h : EndsByCause P act c) :
    EndsByCause P (do act; advance false) c := by
  rw [EndsByCause, ends_bind]
  exact h

theorem jumpTo_cause {target : Int} (hr : 0 ≤ target)
    (hP : ∀ f, P f ↔ 0x1000 ≤ target ∧ f = .targetOutside target c.state.pc ∨
      target < 0x1000 ∧ target % 2 = 1 ∧ f = .targetOdd target c.state.pc) :
    EndsByCause P (jumpTo target) c := by
  rw [EndsByCause, ends_jumpTo, State.memorySize]
  split_ifs with hin he
  · intro f hf
    have := (hP f).1 hf
    omega
  · exact (hP _).2 (.inr ⟨hin.2, by omega, rfl⟩)
  · exact (hP _).2 (.inl ⟨by omega, rfl⟩)

theorem call_cause (hk : d.kind = .call) (hn : 0 ≤ d.nnn ∧ d.nnn ≤ 0xFFF) (hc : c.Ready L) :
    EndsByCause (InstructionFault d c.state) (call d.nnn) c := by
  have hin : 0 ≤ d.nnn ∧ d.nnn < State.memorySize := by
    unfold State.memorySize
    omega
  rw [EndsByCause, call, ends_bind, ends_checkTarget, if_pos hin]
  split_ifs with he
  · rw [ends_bind, ends_read, ends_bind, ends_onState]
    obtain hf | ⟨k, hsp⟩ := hc.state.full_or_free
    · rw [Ends, State.push_full hf]
      exact .fullStack hk he hf
    · rw [Ends, State.push_free hsp]
      dsimp only
      rw [ends_jumpTo, if_pos hin, if_pos he]
      intro f hf
      rw [InstructionFault.call_iff hk] at hf
      omega
  · exact .oddTarget (.inr hk) (by omega)

theorem ret_cause (hk : d.kind = .ret) (hc : c.Ready L) :
    EndsByCause (InstructionFault d c.state) ret c := by
  rw [EndsByCause, ret, ends_bind, ends_onState]
  obtain hz | ⟨k, hsp⟩ := hc.state.empty_or_top
  · rw [Ends, State.pop_empty hz]
    exact .emptyStack hk hz
  · rw [Ends, State.pop_top hsp]
    have hplace := hc.state.returns k (by omega)
    refine jumpTo_cause (by omega) fun f => ?_
    rw [InstructionFault.ret_iff hk]
    constructor
    · rintro (⟨hz, -⟩ | ⟨j, hj, ht, rfl⟩)
      · omega
      · obtain rfl : j = k := Fin.ext (by omega)
        have ht : c.state.stack[j] = 0x1000 := ht
        exact .inl ⟨Int.le_of_eq ht.symm, by rw [ht]⟩
    · rintro (⟨hfar, rfl⟩ | ⟨hin, ho, -⟩)
      · have ht : c.state.stack[k] = 0x1000 := by omega
        exact .inr ⟨k, hsp, ht, by rw [ht]⟩
      · omega

theorem key_cause (hk : d.kind = .skipKeyDown ∨ d.kind = .skipKeyUp) (f : Bool → Bool)
    (hc : c.Ready L) :
    EndsByCause (InstructionFault d c.state) (do advance (f (← keyDown d.x))) c := by
  have hx := hc.state.reg d.x
  rw [EndsByCause, ends_bind, keyDown, ends_bind, ends_read]
  split_ifs with hfar
  · exact .noKey hk (by omega)
  · rw [slot?_eq_some (by omega)]
    intro f hf
    rw [InstructionFault.key_iff hk] at hf
    omega

theorem map_val_upTo (x : Fin 16) : (upTo x).map Fin.val = List.range' 0 (x.val + 1) := by
  revert x
  decide

theorem storeDecimal_spans (hL : L.OneMemory) (x : Fin 16) (hc : c.Ready L) :
    Spans (storeDecimal x) c.state.i 3 c := by
  have hx := hc.state.reg x
  have hi := hc.state.index
  rw [storeDecimal, Spans, ends_bind, ends_read, ends_bind, ends_read]
  refine Spans.access (by omega) (onWrite_one hL hc _ (by omega)) fun _ t hin ht => ?_
  refine Spans.access (by omega) (onWrite_one hL ht.2 _ (by omega)) fun _ u hin' hu => ?_
  rw [show c.state.i + 1 + 1 = c.state.i + 2 by omega] at hin' ⊢
  refine (onWrite_one hL hu.2 _ (by omega)).imp (fun _ _ h => ?_) fun _ _ h => ?_
  · have := h.1.2
    omega
  · have hfar := Bus.beyond_of_outside (by omega) h.1
    have he : c.state.i + 2 = 0x1000 := by omega
    exact ⟨by omega, he ▸ h.2⟩

theorem drawSprite_cause (hL : L.OneMemory) (hk : d.kind = .draw) (hc : c.Ready L) :
    EndsByCause (InstructionFault d c.state) (drawSprite d.x d.y d.nibble.val) c := by
  have hi := hc.state.index
  have hpos := c.state.screen.height_pos
  have htop : 0 ≤ c.state.reg d.y % c.state.screen.height := Int.emod_nonneg _ (by omega)
  have hlt : c.state.reg d.y % c.state.screen.height < c.state.screen.height :=
    Int.emod_lt_of_pos _ (by omega)
  rw [EndsByCause, drawSprite, ends_bind, ends_read, ends_bind]
  refine (drawRows_spans hL _ _ _ (by dsimp only [id]; omega) hc).endsByCause fun f => ?_
  rw [InstructionFault.sprite_iff hk]
  dsimp only [id]
  constructor
  · rintro ⟨hn, hfar, rfl⟩
    exact ⟨by omega, rfl⟩
  · rintro ⟨hfar, rfl⟩
    exact ⟨by omega, by omega, rfl⟩

/-- An instruction fails exactly for the causes listed, and else it ends. -/
theorem execute_cause (hL : L.OneMemory) (d : Instruction) (hc : c.Ready L) :
    EndsByCause (InstructionFault d c.state) (execute d) c := by
  have hi := hc.state.index
  have hn : 0 ≤ d.nnn ∧ d.nnn ≤ 0xFFF := by
    unfold Decoded.nnn
    omega
  have hmap := map_val_upTo d.x
  unfold execute
  cases hk : d.kind with
  | jump =>
    refine jumpTo_cause hn.1 fun f => ?_
    rw [InstructionFault.jump_iff hk]
    constructor
    · rintro ⟨ho, rfl⟩
      exact .inr ⟨by omega, ho, rfl⟩
    · rintro (⟨hfar, -⟩ | ⟨-, ho, rfl⟩)
      · omega
      · exact ⟨ho, rfl⟩
  | call => exact call_cause hk hn hc
  | jumpOffset =>
    have h0 := (hc.state.reg State.offsetRegister).1
    have hr : 0 ≤ d.nnn + c.state.reg State.offsetRegister := by omega
    exact jumpTo_cause hr fun f => InstructionFault.jumpOffset_iff hk
  | ret => exact ret_cause hk hc
  | skipKeyDown => exact key_cause (.inl hk) id hc
  | skipKeyUp => exact key_cause (.inr hk) not hc
  | bcd =>
    have hs := storeDecimal_spans hL d.x hc
    refine then_advance_cause (Spans.endsByCause hs fun f => ?_)
    rw [InstructionFault.decimal_iff hk]
    refine and_congr_left' ?_
    omega
  | storeRegisters =>
    have hs := storeRun_spans hL hi.1 hmap (by omega) hc
    refine then_advance_cause (Spans.endsByCause hs fun f => ?_)
    rw [InstructionFault.transfer_iff (.inl hk)]
    refine and_congr_left' ?_
    omega
  | loadRegisters =>
    have hs := loadRun_spans hL hi.1 hmap (by omega) hc
    refine then_advance_cause (Spans.endsByCause hs fun f => ?_)
    rw [InstructionFault.transfer_iff (.inr hk)]
    refine and_congr_left' ?_
    omega
  | draw => exact then_advance_cause (drawSprite_cause hL hk hc)
  | _ => exact InstructionFault.never (by simp [InstructionFault.kinds, hk])

end Core

end SpriteVM
