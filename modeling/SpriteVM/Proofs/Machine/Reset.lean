import SpriteVM.Proofs.Bus.Fresh
import SpriteVM.Proofs.Bus.Replay
import SpriteVM.Proofs.Machine.Primitive
import SpriteVM.Proofs.Machine.Visible

namespace SpriteVM

/-- A property of a bus that no access to it changes. -/
structure Bus.Invariant (I : Bus → Prop) : Prop where
  poke : ∀ address data, Keeps I (Bus.poke address data)
  log : ∀ b log, I b → I { b with log := log }
  clear : ∀ b, I b → I b.clear

variable {I : Bus → Prop}

namespace Bus.Invariant

theorem read (hI : Invariant I) (address : Int) : Keeps I (Bus.read address) := by
  intro b hb
  refine Ends.of_forall (fun data t h => ?_) fun f t h => ?_
  · obtain ⟨-, rfl⟩ := read_eq_ok h
    exact hI.log b _ hb
  · obtain rfl := read_eq_error h
    exact hb

theorem write (hI : Invariant I) (address data : Int) : Keeps I (Bus.write address data) := by
  intro b hb
  refine Ends.of_forall (fun _ t h => ?_) fun f t h => ?_
  · obtain ⟨u, hp, rfl⟩ := write_eq_ok h
    exact hI.log u _ ((hI.poke address data b hb).ok hp)
  · obtain rfl := (ends_write address data b).error h
    exact hb

theorem load (hI : Invariant I) (address : Int) (data : List UInt8) :
    Keeps I (Bus.load address data) := by
  induction data generalizing address with
  | nil => exact Keeps.pure I ()
  | cons d ds ih => exact (hI.poke address d.toNat).bind fun _ => ih (address + 1)

end Bus.Invariant

theorem Core.Built.keeps_bus (hI : Bus.Invariant I) {α : Type} {act : Exec α} (h : Built act) :
    Keeps (fun c => I c.bus) act := by
  induction h with
  | pure | read | update | fail => exact fun _ hc => hc
  | bind h hn ih ihn => exact ih.bind ihn
  | onState act =>
    intro c hc
    rw [ends_onState]
    exact Ends.of_forall (fun _ _ _ => hc) fun _ _ _ => hc
  | busRead address =>
    intro c hc
    rw [ends_onBus]
    exact hI.read address c.bus hc
  | busWrite address data =>
    intro c hc
    rw [ends_onBus]
    exact hI.write address data c.bus hc

namespace Machine

/-- The random bytes still come from `seed`, and the bus is as `I` says. -/
structure Holds (seed : Int) (I : Bus → Prop) (m : Machine) : Prop where
  seed : m.seed = seed
  bus : I m.bus

variable {seed : Int} {m : Machine}

theorem onBus_holds {α : Type} {act : EStateM Fault Bus α} (h : Keeps I act) :
    Keeps (Holds seed I) (onBus act) := by
  intro m hm
  rw [ends_onBus]
  exact (h m.bus hm.bus).imp (fun _ b hb => ⟨hm.seed, hb⟩) fun _ b hb => ⟨hm.seed, hb⟩

theorem Built.holds (hI : Bus.Invariant I) {R : State → State → Prop} {α : Type} {act : Action α}
    (h : Built R act) : Keeps (Holds seed I) act := by
  induction h with
  | pure | throw | inspect => exact fun _ hm => hm
  | bind h hn ih ihn => exact ih.bind ihn
  | update h => exact fun m hm => ⟨hm.seed, hm.bus⟩
  | busRead address => exact onBus_holds (hI.read address)
  | busWrite address data => exact onBus_holds (hI.write address data)
  | busLoad address data => exact onBus_holds (hI.load address data)
  | takeLog => exact fun m hm => ⟨hm.seed, hI.log m.bus [] hm.bus⟩
  | onTrace act =>
    intro m hm
    rw [ends_onTrace]
    exact Ends.of_forall (fun _ _ _ => ⟨hm.seed, hm.bus⟩) fun _ _ _ => ⟨hm.seed, hm.bus⟩

theorem step_holds (hI : Bus.Invariant I) : Keeps (Holds seed I) step := by
  intro m ⟨hseed, hbus⟩
  have hcleared : I m.cleared.bus := hI.log m.bus [] hbus
  have hread : Keeps I (readInstruction m.state.pc) :=
    (hI.read _).bind fun high => (hI.read _).bind fun low => Keeps.pure I _
  have hread := hread m.cleared.bus hcleared
  have hexec (d : Instruction) (b : Bus) := (Core.Built.execute d).keeps_bus hI ⟨m.state, b⟩
  have ho := step_outcome m
  unfold Ends
  generalize m.step = r at ho
  cases ho with
  | stopped | waiting => exact ⟨hseed, hbus⟩
  | counter => exact ⟨hseed, hcleared⟩
  | unreadable _ _ hr => exact ⟨hseed, hread.error hr⟩
  | failed _ _ hr he => exact ⟨hseed, (hexec _ _ (hread.ok hr)).error he⟩
  | hookFailed _ _ hr he | done _ _ hr he =>
    exact ⟨hseed, hI.log _ [] ((hexec _ _ (hread.ok hr)).ok he)⟩

theorem reset_holds (hI : Bus.Invariant I) : Keeps (Holds seed I) reset := by
  intro m hm
  unfold reset
  rw [ends_bind, ends_modify]
  exact onBus_holds (hI.load _ _) _ ⟨hm.seed, hI.clear m.bus hm.bus⟩

end Machine

open Machine

theorem HostAction.act_holds (hI : Bus.Invariant I) (seed : Int) (a : HostAction) :
    Keeps (Holds seed I) a.act := by
  obtain rfl | rfl | hbuilt := a.step_or_reset_or_built
  · exact (step_holds hI).map _
  · exact (reset_holds hI).map _
  · exact hbuilt.holds hI

/-- On a bus with nothing but memory, what the bus was when new does not change. -/
theorem Bus.fresh_invariant {b : Bus} (hb : b.layout.MemoryOnly) :
    Invariant fun t => t.layout = b.layout ∧ t.fresh = b.fresh where
  poke := by
    rintro address data t ⟨hl, hf⟩
    have hlayout := ends_poke address data t
    refine Ends.of_forall (fun _ u h => ?_) fun f u h => ?_
    · exact ⟨(hlayout.ok h).trans hl, (fresh_poke (hl ▸ hb) h).trans hf⟩
    · obtain rfl := hlayout.error h
      exact ⟨hl, hf⟩
  log := fun t log ht => ht
  clear := by
    rintro t ⟨hl, hf⟩
    exact ⟨(layout_clear t).trans hl, by rw [clear_eq_fresh, fresh_fresh, hf]⟩

namespace Machine

variable {u : Bus} {m : Machine}

theorem reset_eq_ok (h : Bus.load Font.base Font.sprites m.bus.clear = .ok () u) :
    reset m = .ok () { m with core := ⟨State.initial m.seed, u⟩, cycles := 0 } := by
  change installFont { m with core := ⟨State.initial m.seed, m.bus.clear⟩, cycles := 0 } = _
  unfold installFont onBus onCore Core.onBus
  simp only [h]

end Machine

/-- Whatever was done to it, a machine that is reset does from then on what a new one with the same
seed does on the bus as new. -/
theorem session_reset {b : Bus} {seed : Int} {m₀ : Machine} (hb : b.layout.MemoryOnly)
    (h₀ : create b seed = .ok m₀) (history : List HostAction) :
    let old := session history m₀
    (b.fresh.ranges = b.ranges ∧ b.fresh.log = [] ∧
      ∀ a, b.fresh.peek a = (b.peek a).map fun _ => 0) ∧
      ∃ new m, create b.fresh seed = .ok new ∧ reset old = .ok () m ∧ m.trace = old.trace ∧
        m.visible = ({ new with trace := old.trace } : Machine).visible ∧
        ∀ later, transcript later m = transcript later { new with trace := old.trace } := by
  refine ⟨⟨rfl, rfl, Bus.peek_fresh hb⟩, ?_⟩
  obtain ⟨u₀, hfont, rfl⟩ := create_eq_ok.1 h₀
  -- the font fits into the memory as new, since it fitted into the memory as it was
  have hblind := Bus.load_blind Font.base Font.sprites b b.fresh (Bus.fresh_fresh b).symm
  rw [hfont, seen] at hblind
  obtain ⟨u, hnew, -⟩ := seen_eq_ok.1 hblind.symm
  have hinvariant := Bus.fresh_invariant hb
  have hload := hinvariant.load Font.base Font.sprites b ⟨rfl, rfl⟩
  have hold : Holds seed (fun t => t.layout = b.layout ∧ t.fresh = b.fresh) (session history
      ⟨⟨State.initial seed, u₀⟩, seed, 0, none, Trace.off⟩) :=
    session_keeps (fun a _ => a.act_holds hinvariant seed) ⟨rfl, hload.ok hfont⟩
  obtain ⟨hseed, -, hfresh⟩ := hold
  have hreset := reset_eq_ok (by rw [Bus.clear_eq_fresh, hfresh]; exact hnew)
  rw [hseed] at hreset
  exact ⟨_, _, create_eq_ok.2 ⟨u, hnew, rfl⟩, hreset, rfl, rfl, transcript_eq rfl⟩

/-- A session that draws a random byte, waits for a key, writes, and fails to read. -/
def busySession : List HostAction :=
  [.load [0xC0, 0xFF, 0xF0, 0x0A], .step, .step, .setKey 3 true, .resolveKey, .resize 8 8,
    .busWrite 0x300 9, .busRead 0x1000]

theorem session_reset_busy : Bus.blank.layout.MemoryOnly ∧
    ∃ m₀ new m, create Bus.blank 7 = .ok m₀ ∧ create Bus.blank.fresh 7 = .ok new ∧
      reset (session busySession m₀) = .ok () m ∧
      transcript [.busRead 0x300, .load [0xC0, 0xFF], .step, .step] m =
        transcript [.busRead 0x300, .load [0xC0, 0xFF], .step, .step]
          { new with trace := (session busySession m₀).trace } := by
  have hb := Bus.blank_oneMemory.memoryOnly
  obtain ⟨m₀, h₀⟩ := create_ok Bus.blank_oneMemory 7
  obtain ⟨-, new, m, hnew, hreset, -, -, hlater⟩ := session_reset hb h₀ busySession
  exact ⟨hb, m₀, new, m, h₀, hnew, hreset, hlater _⟩

end SpriteVM
