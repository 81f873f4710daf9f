import SpriteVM.Program
import SpriteVM.Proofs.Bus.OneMemory
import SpriteVM.Proofs.Machine.Cycle

namespace SpriteVM

/-- An action of a host on its machine; a cycle is one of them. -/
inductive HostAction
  | step
  | setKey (key : Int) (down : Bool)
  | resolveKey
  | tick
  | takeDraw
  | resize (width height : Int)
  | load (image : List UInt8)
  | reset
  | busLoad (address : Int) (data : List UInt8)
  | busWrite (address data : Int)
  | busRead (address : Int)
  | takeLog
  | addHook (hook : Hook)
  | removeHook (name : String)
  | setTrace (on : Bool)
  deriving DecidableEq, Repr

inductive Reply
  | done
  | report (snapshot : Snapshot)
  | flag (on : Bool)
  | header (h : Option Header)
  | byte (data : Int)
  | log (accesses : List Access)
  deriving DecidableEq, Repr

namespace HostAction

def act : HostAction → Action Reply
  | step => Reply.report <$> Machine.step
  | setKey key down => (fun _ => .done) <$> Machine.setKey key down
  | resolveKey => Reply.flag <$> Machine.resolveKey
  | tick => (fun _ => .done) <$> Machine.tick
  | takeDraw => Reply.flag <$> Machine.takeDraw
  | resize width height => (fun _ => .done) <$> Machine.resizeScreen width height
  | load image => Reply.header <$> Program.load image
  | reset => (fun _ => .done) <$> Machine.reset
  | busLoad address data => (fun _ => .done) <$> Machine.onBus (Bus.load address data)
  | busWrite address data => (fun _ => .done) <$> Machine.onBus (Bus.write address data)
  | busRead address => Reply.byte <$> Machine.onBus (Bus.read address)
  | takeLog => Reply.log <$> Machine.takeLog
  | addHook hook => (fun _ => .done) <$> Machine.onTrace (modify (Trace.add hook))
  | removeHook name => (fun _ => .done) <$> Machine.onTrace (modify (Trace.remove name))
  | setTrace on => (fun _ => .done) <$> Machine.onTrace (modify fun t => { t with enabled := on })

end HostAction

def session (actions : List HostAction) (m : Machine) : Machine :=
  actions.foldl (fun m a => left (a.act m)) m

theorem session_append (before after : List HostAction) (m : Machine) :
    session (before ++ after) m = session after (session before m) :=
  List.foldl_append

theorem session_keeps {I : Machine → Prop} {actions : List HostAction} {m : Machine}
    (h : ∀ a ∈ actions, Keeps I a.act) (hm : I m) : I (session actions m) := by
  induction actions generalizing m with
  | nil => exact hm
  | cons a actions ih =>
    -- also an action that fails leaves a state with the invariant, and the rest goes on from there
    have ha := (h a List.mem_cons_self).left hm
    exact ih (fun b hb => h b (List.mem_cons_of_mem a hb)) ha

namespace Machine

variable {L : Layout}

theorem update_keeps {change : State → State} (h : ∀ s, s.Sound → (change s).Sound) :
    Keeps (Sound L) (update change) := fun _ hm => ⟨h _ hm.state, hm.layout⟩

theorem onTrace_keeps {α : Type} (act : EStateM Fault Trace α) : Keeps (Sound L) (onTrace act) := by
  intro m hm
  rw [ends_onTrace]
  exact Ends.of_forall (fun _ _ _ => hm) fun _ _ _ => hm

theorem onLoad_keeps (address : Int) (data : List UInt8) :
    Keeps (Sound L) (onBus (Bus.load address data)) := by
  intro m hm
  rw [ends_onBus]
  exact (Bus.ends_load address data m.bus).imp (fun _ b hb => ⟨hm.state, hb.trans hm.layout⟩)
    fun _ b hb => ⟨hm.state, hb.trans hm.layout⟩

theorem onWrite_keeps (address data : Int) : Keeps (Sound L) (onBus (Bus.write address data)) := by
  intro m hm
  rw [ends_onBus]
  exact (Bus.ends_write address data m.bus).imp (fun _ b hb => ⟨hm.state, hb.trans hm.layout⟩)
    fun _ b hb => ⟨hm.state, hb ▸ hm.layout⟩

theorem onRead_keeps (hL : L.MemoryOnly) (address : Int) :
    Keeps (Sound L) (onBus (Bus.read address)) := by
  intro m hm
  rw [ends_onBus]
  exact (Bus.ends_read (hm.layout ▸ hL) address).imp
    (fun _ b hb => ⟨hm.state, hb.2.trans hm.layout⟩) fun _ b hb => ⟨hm.state, hb ▸ hm.layout⟩

theorem takeLog_keeps : Keeps (Sound L) takeLog := fun _ hm => ⟨hm.state, hm.layout⟩

theorem takeDraw_keeps : Keeps (Sound L) takeDraw := fun _ hm => ⟨{ hm.state with }, hm.layout⟩

theorem setKey_keeps (key : Int) (down : Bool) : Keeps (Sound L) (setKey key down) := by
  intro m hm
  unfold setKey
  split
  · exact ⟨{ hm.state with }, hm.layout⟩
  · exact hm

theorem resolveKey_keeps : Keeps (Sound L) resolveKey := by
  intro m hm
  unfold resolveKey
  rw [ends_bind, ends_inspect]
  split
  · exact hm
  · rw [ends_bind, ends_inspect]
    cases m.state.lowestKey? with
    | none => exact hm
    | some key =>
      rw [ends_bind, ends_inspect]
      cases slot? m.state.keyTarget with
      | none => exact hm
      | some x =>
        have hkey : 0 ≤ (key.val : Int) ∧ (key.val : Int) ≤ 255 := by omega
        have hs := hm.state.setReg x hkey
        exact ⟨{ hs with }, hm.layout⟩

theorem resizeScreen_keeps (width height : Int) : Keeps (Sound L) (resizeScreen width height) := by
  intro m hm
  unfold resizeScreen Screen.ofSize
  by_cases h : (1 ≤ width ∧ width ≤ 255) ∧ (1 ≤ height ∧ height ≤ 255)
  · rw [dif_pos h]
    have hw : 0 ≤ width ∧ width ≤ 255 := by omega
    have hh : 0 ≤ height ∧ height ≤ 255 := by omega
    have hs := (hm.state.setReg State.widthRegister hw).setReg State.heightRegister hh
    exact ⟨{ hs with }, hm.layout⟩
  · rw [dif_neg h]
    exact hm

theorem load_keeps (image : List UInt8) : Keeps (Sound L) (Program.load image) := by
  intro m hm
  unfold Program.load
  split_ifs
  · exact hm
  · cases Program.header image with
    | error f => exact hm
    | ok h =>
      refine (onLoad_keeps _ _).bind (fun _ => ?_) m hm
      cases h with
      | none => exact (resizeScreen_keeps _ _).bind fun _ => Keeps.pure _ _
      | some h => exact (resizeScreen_keeps _ _).bind fun _ => Keeps.pure _ _

theorem reset_keeps : Keeps (Sound L) reset := by
  intro m hm
  unfold reset
  rw [ends_bind, ends_modify]
  exact onLoad_keeps _ _ _ ⟨State.initial_sound m.seed, (Bus.layout_clear m.bus).trans hm.layout⟩

/-- However far the font gets, a reset begins anew with the same seed. -/
theorem left_reset (m : Machine) :
    ∃ b, left (reset m) = { m with core := ⟨State.initial m.seed, b⟩, cycles := 0 } := by
  refine ends_left (P := fun t : Machine =>
    ∃ b, t = { m with core := ⟨State.initial m.seed, b⟩, cycles := 0 }).1 ?_
  rw [reset, ends_bind, ends_modify, installFont, ends_onBus]
  exact Ends.of_forall (fun _ b _ => ⟨b, rfl⟩) fun _ b _ => ⟨b, rfl⟩

theorem create_eq_ok {b : Bus} {seed : Int} {m : Machine} : create b seed = .ok m ↔
    ∃ u, Bus.load Font.base Font.sprites b = .ok () u ∧
      m = ⟨⟨State.initial seed, u⟩, seed, 0, none, Trace.off⟩ := by
  unfold create installFont onBus onCore Core.onBus
  dsimp only
  cases Bus.load Font.base Font.sprites b with
  | ok _ u => simp [eq_comm]
  | error f u => simp

theorem create_sound {b : Bus} {seed : Int} {m : Machine} (hm : create b seed = .ok m) :
    m.Sound b.layout := by
  have h : Ends installFont (fun _ t => t.Sound b.layout) (fun _ t => t.Sound b.layout)
      ⟨⟨State.initial seed, b⟩, seed, 0, none, Trace.off⟩ :=
    onLoad_keeps _ _ _ ⟨State.initial_sound seed, rfl⟩
  unfold create at hm
  split at hm
  · next t hr =>
    obtain rfl := Except.ok.inj hm
    exact h.ok hr
  · contradiction

/-- A machine can be built where a check of it can be computed. -/
theorem exists_created (b : Bus) (seed : Int) (check : Machine → Bool)
    (h : (create b seed).toOption.any check = true) :
    ∃ m, create b seed = .ok m ∧ check m = true := by
  cases hm : create b seed with
  | error f => simp [hm, Except.toOption] at h
  | ok m => exact ⟨m, rfl, by simpa [hm, Except.toOption] using h⟩

/-- With memory for the font a machine can be built. -/
theorem create_ok {b : Bus} (hb : b.layout.OneMemory) (seed : Int) : ∃ m, create b seed = .ok m := by
  have hbase : 0 ≤ Font.base := by decide
  obtain ⟨t, ht⟩ := Bus.load_inside hb hbase Font.sprites (by decide)
  exact ⟨_, create_eq_ok.2 ⟨t, ht, rfl⟩⟩

end Machine

theorem HostAction.act_keeps {L : Layout} (hL : L.MemoryOnly) (a : HostAction) :
    Keeps (Machine.Sound L) a.act := by
  cases a with
  | step => exact (Machine.step_keeps hL).map _
  | setKey key down => exact (Machine.setKey_keeps key down).map _
  | resolveKey => exact Machine.resolveKey_keeps.map _
  | tick => exact (Machine.update_keeps fun _ hs => hs.tick).map _
  | takeDraw => exact Machine.takeDraw_keeps.map _
  | resize width height => exact (Machine.resizeScreen_keeps width height).map _
  | load image => exact (Machine.load_keeps image).map _
  | reset => exact Machine.reset_keeps.map _
  | busLoad address data => exact (Machine.onLoad_keeps address data).map _
  | busWrite address data => exact (Machine.onWrite_keeps address data).map _
  | busRead address => exact (Machine.onRead_keeps hL address).map _
  | takeLog => exact Machine.takeLog_keeps.map _
  | addHook hook => exact (Machine.onTrace_keeps _).map _
  | removeHook name => exact (Machine.onTrace_keeps _).map _
  | setTrace on => exact (Machine.onTrace_keeps _).map _

/-- Whatever a host does to a machine on a bus with nothing but memory, and in whatever order, the
state stays within its bounds. -/
theorem session_bounds {b : Bus} {seed : Int} {m : Machine} (hb : b.layout.MemoryOnly)
    (hm : Machine.create b seed = .ok m) (actions : List HostAction) :
    (session actions m).state.Bounded := by
  have hs : (session actions m).Sound b.layout :=
    session_keeps (fun a _ => a.act_keeps hb) (Machine.create_sound hm)
  exact hs.state.bounded

/-- Memory for the font and from 0x1FE to 0x2FD, and nothing else. -/
def splitMemory : Bus :=
  ⟨#[.ram (Ram.zeroed 0x50), .ram (Ram.zeroed 0x100)], [⟨0x50, 0x9F, 0⟩, ⟨0x1FE, 0x2FD, 1⟩], []⟩

/-- A sprite runs past the end of the memory, a write misses it, and a picture is too wide. -/
theorem session_bounds_splitMemory :
    splitMemory.layout.MemoryOnly ∧ ∃ m, Machine.create splitMemory 7 = .ok m ∧
      (session [.load [0xA2, 0xFC, 0xD1, 0x2F], .step, .step, .busWrite 0x300 1, .resize 256 1]
        m).state.Bounded := by
  have hb : splitMemory.layout.MemoryOnly := by
    intro r hr
    simp only [splitMemory, Bus.layout, List.mem_cons, List.not_mem_nil, or_false] at hr
    rcases hr with rfl | rfl
    · exact ⟨0x50, by simp [splitMemory, Bus.layout, Device.extent]⟩
    · exact ⟨0x100, by simp [splitMemory, Bus.layout, Device.extent]⟩
  obtain ⟨m, hm, -⟩ := Machine.exists_created splitMemory 7 (fun _ => true) (by decide +kernel)
  exact ⟨hb, m, hm, session_bounds hb hm _⟩

end SpriteVM
