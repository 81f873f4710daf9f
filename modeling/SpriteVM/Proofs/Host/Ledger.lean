import Mathlib.Algebra.GroupWithZero.Nat
import SpriteVM.Proofs.Host.Run
import SpriteVM.Proofs.Machine.Family

namespace SpriteVM

/-- A timer went down by one and not below zero; one set below zero stays as it is. -/
structure CountedDown (before after : Int) : Prop where
  saturates : 0 ≤ before → after = max (before - 1) 0
  below : before < 0 → after = before

theorem State.countedDown (timer : Int) : CountedDown timer (countDown timer) where
  saturates h := by
    unfold countDown
    split <;> omega
  below h := if_neg (by omega)

/-- A turn without an instruction leaves the timers alone, also one that ends a wait. -/
theorem Machine.Turn.timers {m u : Machine} {room : Nat} (h : Turn room m [] u) :
    u.state.delayTimer = m.state.delayTimer ∧ u.state.soundTimer = m.state.soundTimer := by
  cases h with
  | answered _ hr =>
    obtain ⟨v, b, rfl⟩ := resolveKey_rest hr
    exact ⟨rfl, rfl⟩
  | played _ h =>
    rw [executes_nil.1 h]
    exact ⟨rfl, rfl⟩

namespace Host

open Machine (Turn BrokenTurn)

variable {h t x : Hosted} {f : Fault} {n : Nat} {last : Option Frame}

/-- How the frame that begins in `x` stands in the books, be it that it was completed or that it failed. -/
structure Accounted (x : Hosted) : Prop where
  completed : ∀ frame t, runFrame x = .ok frame t →
    t.host = { x.host with frames := x.host.frames + 1 } ∧
      ∃ ss u, Turn x.host.cyclesPerFrame x.machine ss u ∧ x.machine.Advances ss t.machine ∧
        CountedDown u.state.delayTimer t.machine.state.delayTimer ∧
        CountedDown u.state.soundTimer t.machine.state.soundTimer ∧
        t.machine.state.draw = false ∧ frame.cycles = ss.length
  idle : ∀ frame t, runFrame x = .ok frame t → frame.cycles = 0 →
    CountedDown x.machine.state.delayTimer t.machine.state.delayTimer ∧
      CountedDown x.machine.state.soundTimer t.machine.state.soundTimer
  room : ∀ frame t, runFrame x = .ok frame t → frame.cycles ≤ x.host.cyclesPerFrame ∧
    (frame.cycles < x.host.cyclesPerFrame → x.machine.state.blocking = true ∨
      t.machine.state.terminal = true ∨ t.machine.state.blocking = true)
  broken : ∀ f t, runFrame x = .error f t →
    t.host = x.host ∧ ∃ ss, BrokenTurn x.host.cyclesPerFrame x.machine ss f t.machine

theorem accounted (x : Hosted) : Accounted x where
  completed := by
    intro frame t hr
    obtain ⟨ss, u, hturn, rfl, rfl⟩ := runFrame_eq_ok hr
    refine ⟨rfl, ss, u, hturn, hturn.advances.closed, ?_, ?_, rfl, rfl⟩
    · exact State.countedDown u.state.delayTimer
    · exact State.countedDown u.state.soundTimer
  idle := by
    intro frame t hr hcycles
    obtain ⟨ss, u, hturn, rfl, rfl⟩ := runFrame_eq_ok hr
    obtain rfl : ss = [] := List.eq_nil_of_length_eq_zero hcycles
    obtain ⟨hdelay, hsound⟩ := hturn.timers
    rw [← hdelay, ← hsound]
    exact ⟨State.countedDown u.state.delayTimer, State.countedDown u.state.soundTimer⟩
  room := by
    intro frame t hr
    obtain ⟨ss, u, hturn, rfl, rfl⟩ := runFrame_eq_ok hr
    cases hturn with
    | answered hb => exact ⟨Nat.zero_le _, fun _ => .inl hb⟩
    | played _ _ hroom hstop => exact ⟨hroom, fun hlt => .inr (hstop hlt)⟩
  broken := by
    intro f t hr
    obtain ⟨ss, u, hturn, rfl⟩ := runFrame_eq_error hr
    exact ⟨rfl, ss, hturn⟩

def completes (x : Hosted) : Bool :=
  match runFrame x with
  | .ok _ _ => true
  | .error _ _ => false

/-- The cycles that a frame reports, or the instructions executed in one that failed. -/
def spent (x : Hosted) : Nat :=
  match runFrame x with
  | .ok frame _ => frame.cycles
  | .error _ t => (x.machine.since t.machine).length

/-- From `h` to `t` these frames were gone through, and nothing else was counted. -/
structure Balances (h : Hosted) (xs : List Hosted) (t : Hosted) : Prop where
  frames : t.host.frames = h.host.frames + xs.countP completes
  cycles : t.machine.cycles = h.machine.cycles + (xs.map spent).sum

namespace Balances

variable {u : Hosted} {xs ys : List Hosted}

theorem refl (h : Hosted) : Balances h [] h := ⟨rfl, rfl⟩

theorem trans (hxs : Balances h xs t) (hys : Balances t ys u) : Balances h (xs ++ ys) u where
  frames := by rw [hys.frames, hxs.frames, List.countP_append, Nat.add_assoc]
  cycles := by rw [hys.cycles, hxs.cycles, List.map_append, List.sum_append, Nat.add_assoc]

end Balances

theorem frame_balances (h : Hosted) : Balances h [h] (left (runFrame h)) := by
  cases hr : runFrame h with
  | ok frame t =>
    obtain ⟨hhost, ss, hss, hcycles⟩ := frame_advances hr
    constructor
    · simp [completes, hr, left, hhost]
    · simp [spent, hr, left, hcycles, hss.cycles]
  | error f t =>
    obtain ⟨ss, u, hturn, rfl⟩ := runFrame_eq_error hr
    obtain ⟨ss', -, hadvances⟩ := hturn.advances
    constructor
    · simp [completes, hr, left]
    · simp [spent, hr, left, hadvances.since_eq, hadvances.cycles]

theorem frame_not_stopped (hr : runFrame h = .error f t) : f.kind ≠ .machineStopped := by
  obtain ⟨ss, u, hturn, rfl⟩ := runFrame_eq_error hr
  cases hturn with
  | unanswered _ hkey =>
    have ho := Machine.resolveKey_outcome h.machine
    rw [hkey] at ho
    cases ho
    simp [Fault.kind]
  | broke _ _ _ ha hs => exact ha.not_stopped hs

namespace RunOutcome

variable {xs : List Hosted} {r : EStateM.Result Fault Hosted (Option Frame × Bool)}

theorem balances (ho : RunOutcome n last h xs r) : Balances h xs (left r) := by
  induction ho with
  | spent | stopped => exact Balances.refl _
  | @broken n last h t f _ hr =>
    have hframe := frame_balances h
    rw [hr] at hframe
    exact hframe
  | @rests n last h t frame _ hr =>
    have hframe := frame_balances h
    rw [hr] at hframe
    exact hframe
  | @goes n last h t frame xs r _ hr _ _ ih =>
    have hframe := frame_balances h
    rw [hr] at hframe
    exact hframe.trans ih

end RunOutcome

theorem onMachine_left {α : Type} (act : Action α) (h : Hosted) :
    left (onMachine act h) = ⟨left (act h.machine), h.host⟩ := by
  unfold onMachine
  dsimp only
  cases act h.machine <;> rfl

/-- A press or a release is no frame, and it counts nothing. -/
theorem setKey_balances (key : Int) (down : Bool) (h : Hosted) :
    Balances h [] (left (onMachine (Machine.setKey key down) h)) := by
  rw [onMachine_left]
  unfold Machine.setKey
  split
  · exact ⟨rfl, rfl⟩
  · exact ⟨rfl, rfl⟩

theorem setKey_not_stopped {key : Int} {down : Bool}
    (hr : onMachine (Machine.setKey key down) h = .error f t) : f.kind ≠ .machineStopped := by
  unfold onMachine Machine.setKey at hr
  by_cases hkey : 0 ≤ key ∧ key < 16
  · rw [dif_pos hkey] at hr
    exact nomatch hr
  · rw [dif_neg hkey] at hr
    obtain ⟨rfl, -⟩ := EStateM.Result.error.inj hr
    simp [Fault.kind]

end Host

open Host

/-- A call of a host on its machine. -/
inductive HostCall
  | press (key : Int)
  | release (key : Int)
  | frame
  | run (limit : Option Int) (patience : Nat)
  deriving DecidableEq, Repr

namespace HostCall

def act : HostCall → EStateM Fault Hosted Unit
  | press key => onMachine (Host.press key)
  | release key => onMachine (Host.release key)
  | frame => (fun _ => ()) <$> runFrame
  | run limit patience => (fun _ => ()) <$> Host.run limit patience

/-- The states in which the frames of a call begin. -/
def frames : HostCall → Hosted → List Hosted
  | press _, _ | release _, _ => []
  | frame, h => [h]
  | run limit patience, h => begun (allowed limit patience) h

variable {h t : Hosted} {f : Fault}

theorem act_balances (c : HostCall) (h : Hosted) : Balances h (c.frames h) (left (c.act h)) := by
  cases c with
  | press key => exact setKey_balances key true h
  | release key => exact setKey_balances key false h
  | frame =>
    rw [act, left_map]
    exact frame_balances h
  | run limit patience =>
    rw [act, left_map, run_eq, left_map]
    exact (runFrames_outcome _ _ h).balances

theorem act_not_stopped {c : HostCall} (hr : c.act h = .error f t) : f.kind ≠ .machineStopped := by
  cases c with
  | press key => exact setKey_not_stopped hr
  | release key => exact setKey_not_stopped hr
  | frame => exact frame_not_stopped (map_eq_error.1 hr)
  | run limit patience =>
    have hrun := map_eq_error.1 hr
    rw [run_eq] at hrun
    obtain ⟨x, -, hf⟩ := (runFrames_outcome _ _ h).fails (map_eq_error.1 hrun)
    exact frame_not_stopped hf

end HostCall

/-- A call after the other, where one that fails leaves what it did and the next goes on from there. -/
def hostSession (calls : List HostCall) (h : Hosted) : Hosted :=
  calls.foldl (fun h c => left (c.act h)) h

/-- The states in which the frames of a session begin. -/
def sessionFrames : List HostCall → Hosted → List Hosted
  | [], _ => []
  | c :: calls, h => c.frames h ++ sessionFrames calls (left (c.act h))

theorem hostSession_balances (calls : List HostCall) (h : Hosted) :
    Balances h (sessionFrames calls h) (hostSession calls h) := by
  induction calls generalizing h with
  | nil => exact Balances.refl h
  | cons c calls ih => exact (c.act_balances h).trans (ih (left (c.act h)))

/-- Whatever the calls of a host and whatever fails in them, every frame is accounted for, nothing
else is counted, and no call finds a stopped machine refusing. -/
theorem hostSession_accounts (h : Hosted) (calls : List HostCall) :
    let t := hostSession calls h
    let xs := sessionFrames calls h
    (∀ x ∈ xs, Accounted x) ∧
      t.host.frames = h.host.frames + xs.countP completes ∧
      t.machine.cycles = h.machine.cycles + (xs.map spent).sum ∧
      ∀ (c : HostCall) f u, c.act t = .error f u → f.kind ≠ .machineStopped := by
  have hbalance := hostSession_balances calls h
  refine ⟨fun x _ => accounted x, hbalance.frames, hbalance.cycles, ?_⟩
  intro c f u hr
  exact HostCall.act_not_stopped hr

end SpriteVM
