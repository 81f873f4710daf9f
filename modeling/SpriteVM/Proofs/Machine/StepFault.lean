import SpriteVM.Proofs.Machine.InstructionFault
import SpriteVM.Proofs.Machine.Outcome
import SpriteVM.Proofs.Machine.Session
import SpriteVM.Proofs.Machine.Sprite

namespace SpriteVM

theorem Bits.or_byte_eq_add {high low : Int} (hh : 0 ≤ high) (hl : 0 ≤ low ∧ low ≤ 255) :
    Bits.or (high * 256) low = high * 256 + low := by
  obtain ⟨m, rfl⟩ := Int.eq_ofNat_of_zero_le hh
  obtain ⟨n, rfl⟩ := Int.eq_ofNat_of_zero_le hl.1
  have h : 2 ^ 8 * m + n = 2 ^ 8 * m ||| n := Nat.two_pow_add_eq_or_of_lt (by omega) m
  have hm : ((m : Int) * 256) = ((2 ^ 8 * m : Nat) : Int) := by omega
  rw [hm, or_natCast, ← h]
  omega

namespace Machine

/-- The instruction at the program counter, as memory has it. -/
def next (m : Machine) : Instruction :=
  Instruction.decode (m.bus.byte m.state.pc * 256 + m.bus.byte (m.state.pc + 1)) m.state.pc

inductive StepFault (m : Machine) : Fault → Prop
  | stopped (ht : m.state.halted = true ∨ m.state.quit = true) : StepFault m (.stopped m.state.halted)
  | counter (ha : m.Active) (hpc : 0x1000 ≤ m.state.pc) : StepFault m (.counter m.state.pc)
  | instruction (ha : m.Active) (hpc : m.state.pc < 0x1000) {f : Fault}
    (hf : InstructionFault m.next m.state f) : StepFault m f

def StepFault.families : List FaultClass :=
  [.machineStopped, .programCounter, .stackOverflow, .stackUnderflow, .keyIndex, .memoryAccess]

variable {L : Layout} {m : Machine} {f g : Fault}

theorem StepFault.family (h : StepFault m f) : f.kind ∈ families := by
  cases h with
  | stopped | counter => simp [families, Fault.kind]
  | instruction _ _ hf => cases hf <;> simp [families, Fault.kind]

theorem StepFault.unique (hf : StepFault m f) (hg : StepFault m g) : f = g := by
  cases hf with
  | stopped ht => cases hg <;> simp_all [Active, State.terminal]
  | counter ha hpc =>
    cases hg with
    | stopped ht => simp_all [Active, State.terminal]
    | counter => rfl
    | instruction _ hlt _ => omega
  | instruction ha hpc hf =>
    cases hg with
    | stopped ht => simp_all [Active, State.terminal]
    | counter _ hle => omega
    | instruction _ _ hg => exact hf.unique hg

theorem ends_readInstruction_one {b : Bus} (hb : b.layout.OneMemory) {address : Int}
    (ha : Bus.Inside address) (ha' : Bus.Inside (address + 1)) :
    Ends (readInstruction address) (fun d t =>
        d = Instruction.decode (b.byte address * 256 + b.byte (address + 1)) address ∧
          t.layout = b.layout)
      (fun _ _ => False) b := by
  rw [readInstruction, ends_bind]
  refine (Bus.ends_read_one hb address).imp (fun high t ht => ?_) fun _ _ hf => hf.1 ha
  obtain ⟨-, rfl, rfl⟩ := ht
  rw [ends_bind]
  refine (Bus.ends_read_one (by exact hb) (address + 1)).imp (fun low u hu => ?_)
    fun _ _ hf => hf.1 ha'
  obtain ⟨-, rfl, rfl⟩ := hu
  have hh := Bus.byte_range hb.memoryOnly address
  have hl := Bus.byte_range hb.memoryOnly (address + 1)
  rw [ends_pure, Bus.byte_record, Bits.or_byte_eq_add hh.1 hl]
  exact ⟨rfl, rfl⟩

/-- On one memory the instruction at the counter is the one that memory has there. -/
theorem readInstruction_next (hb : m.bus.layout.OneMemory) (hp : m.state.Fetchable) :
    Ends (readInstruction m.state.pc) (fun d _ => d = m.next) (fun _ _ => False) m.cleared.bus := by
  obtain ⟨⟨hlo, hhi⟩, he⟩ := hp
  rw [State.memorySize] at hhi
  have hin : Bus.Inside m.state.pc := ⟨hlo, by omega⟩
  have hin' : Bus.Inside (m.state.pc + 1) := ⟨by omega, by omega⟩
  have hread := ends_readInstruction_one (b := m.cleared.bus) hb hin hin'
  exact hread.imp (fun _ _ h => h.1) fun _ _ h => h

theorem Fetching.eq_next {d : Instruction} (h : m.Fetching d) (hb : m.bus.layout.OneMemory) :
    d = m.next := by
  obtain ⟨-, hp, b, hr⟩ := h
  exact (readInstruction_next hb hp).ok hr

theorem fetching_next (hb : m.bus.layout.OneMemory) (ha : m.Active) (hp : m.state.Fetchable) :
    m.Fetching m.next := by
  have hnext := readInstruction_next hb hp
  cases hr : readInstruction m.state.pc m.cleared.bus with
  | ok d b =>
    obtain rfl := hnext.ok hr
    exact ⟨ha, hp, b, hr⟩
  | error f b => exact (hnext.error hr).elim

/-- A fetch brings the instruction at the counter, or fails as the counter is out of memory. -/
theorem fetch_one (hL : L.OneMemory) (hm : m.Sound L) :
    Ends fetch (fun word t => t.core.Ready L ∧ t.decode word = m.next ∧ t.state = m.state ∧
        t.trace = m.trace ∧ m.state.pc < 0x1000)
      (fun f _ => 0x1000 ≤ m.state.pc ∧ f = .counter m.state.pc) m := by
  have hpc : 0 ≤ m.state.pc ∧ m.state.pc ≤ 0x1002 ∧ m.state.pc % 2 = 0 := hm.state.pc
  rw [ends_fetch, State.memorySize]
  by_cases hlt : m.state.pc < 0x1000
  · have hb : m.bus.layout.OneMemory := hm.layout ▸ hL
    rw [if_pos ⟨⟨hpc.1, hlt⟩, hpc.2.2⟩]
    have hin : Bus.Inside m.state.pc := ⟨hpc.1, by omega⟩
    have hin' : Bus.Inside (m.state.pc + 1) := ⟨by omega, by omega⟩
    refine (ends_readInstruction_one hb hin hin').imp (fun d b hd => ?_) fun _ _ hf => hf.elim
    refine ⟨⟨⟨hm.state, hlt⟩, hd.2.trans hm.layout⟩, ?_, rfl, rfl, hlt⟩
    obtain ⟨rfl, -⟩ := hd
    exact if_pos ⟨rfl, rfl⟩
  · rw [if_neg fun h => hlt h.1.2]
    exact ⟨by omega, rfl⟩

theorem step_cause (hL : L.OneMemory) (hm : m.Sound L) (hh : m.trace.Calm) :
    EndsByCause (StepFault m) step m := by
  refine ends_step (fun ht => ?_) (fun ht hb f hf => ?_) fun ha => ?_
  · exact .stopped (by simpa [State.terminal] using ht)
  · cases hf <;> simp_all [Active, State.terminal]
  · have hclear : m.cleared.Sound L := ⟨hm.state, hm.layout⟩
    refine (fetch_one hL hclear).imp (fun word t hw => ?_) fun f t hf => ?_
    · obtain ⟨hready, hd, hs, htrace, hpc⟩ := hw
      have hs : t.core.state = m.state := hs
      have hd : t.decode word = m.next := hd
      have hpc : m.state.pc < 0x1000 := hpc
      rw [hd]
      refine (Core.execute_cause hL m.next hready).imp (fun _ c hn => ?_) fun f c hf => ?_
      · -- nothing made the instruction fail, and a hook does not either
        rw [hs] at hn
        have hcalm : t.trace.Calm := htrace ▸ hh
        refine (Trace.ends_notify (P := True) hcalm (fun _ => trivial) _).imp (fun _ u _ f hf => ?_)
          fun _ _ hf => hf.elim
        cases hf with
        | stopped ht => simp_all [Active, State.terminal]
        | counter _ hle => omega
        | instruction _ _ hf => exact hn f hf
      · exact .instruction ha hpc (hs ▸ hf)
    · obtain ⟨hle, rfl⟩ := hf
      exact .counter ha hle

end Machine

/-- Unless a hook fails, a cycle fails exactly for the causes listed; a fetch fails for the counter
alone, and no cell is drawn outside of the picture. -/
theorem session_step_fails {b : Bus} {seed : Int} {m₀ : Machine} (hb : b.layout.OneMemory)
    (h₀ : Machine.create b seed = .ok m₀) (actions : List HostAction)
    (hh : (session actions m₀).trace.Calm) :
    let m := session actions m₀
    (∀ f, (∃ t, m.step = .error f t) ↔ m.StepFault f) ∧
      ((∃ s t, m.step = .ok s t) ↔ ∀ f, ¬ m.StepFault f) ∧
      (∀ f t, m.step = .error f t → f.kind ∈ Machine.StepFault.families) ∧
      (∀ f t, m.fetch = .error f t → f.kind = .programCounter) ∧
      ∀ x y n, Core.drawSprite x y n = Core.toggleSprite x y n := by
  have hs : (session actions m₀).Sound b.layout :=
    session_keeps (fun a _ => a.act_keeps hb.memoryOnly) (Machine.create_sound h₀)
  have hcause := Machine.step_cause hb hs hh
  refine ⟨hcause.fails_iff fun _ _ => Machine.StepFault.unique, hcause.returns_iff, ?_, ?_,
    Core.drawSprite_eq_toggleSprite⟩
  · intro f t hr
    exact Machine.StepFault.family (hcause.error hr)
  · intro f t hr
    rw [((Machine.fetch_one hb hs).error hr).2]
    rfl

/-- A program that returns before anything was called. -/
theorem session_step_fails_ret :
    Bus.blank.layout.OneMemory ∧ ∃ m₀, Machine.create Bus.blank 7 = .ok m₀ ∧
      (session [.load [0x00, 0xEE]] m₀).trace.Calm ∧
      ∃ t, (session [.load [0x00, 0xEE]] m₀).step = .error (.stackUnderflow 0x200) t := by
  obtain ⟨m₀, h₀, hrun⟩ := Machine.exists_created Bus.blank 7 (fun m₀ =>
    let m := session [.load [0x00, 0xEE]] m₀
    m.trace.hooks.isEmpty && !m.state.terminal && !m.state.blocking &&
      (m.state.pc = 0x200 && m.state.sp = 0 && m.next.kind = .ret : Bool)) (by decide +kernel)
  simp only [Bool.and_eq_true, Bool.not_eq_true', List.isEmpty_iff, decide_eq_true_eq] at hrun
  obtain ⟨⟨⟨hhooks, ht⟩, hb⟩, ⟨hpc, hsp⟩, hk⟩ := hrun
  have hcalm : (session [.load [0x00, 0xEE]] m₀).trace.Calm := by simp [Trace.Calm, hhooks]
  have hf := Machine.StepFault.instruction ⟨ht, hb⟩ (by omega) (.emptyStack hk hsp)
  rw [hpc] at hf
  exact ⟨Bus.blank_oneMemory, m₀, h₀, hcalm,
    ((session_step_fails Bus.blank_oneMemory h₀ _ hcalm).1 _).2 hf⟩

end SpriteVM
