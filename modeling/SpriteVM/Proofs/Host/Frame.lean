import SpriteVM.Host
import SpriteVM.Proofs.Machine.KeyWait
import SpriteVM.Proofs.Machine.Steps

namespace SpriteVM

namespace Machine

variable {m u : Machine} {ss : List Snapshot} {room : Nat} {f : Fault}

/-- The machine goes through its turn, in which it executes `ss`, and comes to `u`. -/
inductive Turn (room : Nat) (m : Machine) : List Snapshot → Machine → Prop
  | answered (hb : m.state.blocking = true) {got : Bool} {u : Machine}
    (hr : m.resolveKey = .ok got u) : Turn room m [] u
  | played (hb : m.state.blocking = false) {ss : List Snapshot} {u : Machine}
    (h : m.Executes ss u) (hroom : ss.length ≤ room)
    (hstop : ss.length < room → u.state.terminal = true ∨ u.state.blocking = true) : Turn room m ss u

/-- The turn fails: the register waited for is none, or a cycle fails after those that executed
`ss`. What is left is what the failing action left. -/
inductive BrokenTurn (room : Nat) (m : Machine) : List Snapshot → Fault → Machine → Prop
  | unanswered (hb : m.state.blocking = true) {f : Fault} {u : Machine}
    (hr : m.resolveKey = .error f u) : BrokenTurn room m [] f u
  | broke (hb : m.state.blocking = false) {ss : List Snapshot} {v u : Machine} {f : Fault}
    (h : m.Executes ss v) (hroom : ss.length < room) (ha : v.Active) (hs : v.step = .error f u) :
    BrokenTurn room m ss f u

/-- The host's part of a frame: the timers are counted down, and the draw flag is taken. -/
def closed (u : Machine) : Machine :=
  { u with core := ⟨{ u.state.tick with draw := false }, u.bus⟩ }

theorem resolveKey_advances (m : Machine) :
    Ends resolveKey (fun _ u => m.Advances [] u) (fun _ u => m.Advances [] u) m := by
  refine Ends.of_forall (fun got u hr => ?_) fun f u hr => ?_
  · obtain ⟨v, b, rfl⟩ := resolveKey_rest hr
    exact Advances.of_same rfl rfl
  · rw [resolveKey_error hr]
    exact Advances.refl m

theorem Turn.advances (h : Turn room m ss u) : m.Advances ss u := by
  cases h with
  | answered _ hr => exact (resolveKey_advances m).ok hr
  | played _ h => exact h.advances

/-- An instruction on which a hook failed was executed as well. -/
theorem BrokenTurn.advances (h : BrokenTurn room m ss f u) :
    ∃ ss', ss'.length ≤ 1 ∧ m.Advances (ss ++ ss') u := by
  cases h with
  | unanswered _ hr => exact ⟨[], by simp, (resolveKey_advances m).error hr⟩
  | broke _ h _ _ hs =>
    obtain ⟨ss', hle, hlast⟩ := (step_advances _).error hs
    exact ⟨ss', hle, h.advances.trans hlast⟩

theorem Advances.closed (h : m.Advances ss u) : m.Advances ss u.closed := ⟨h.1, h.2, h.3⟩

end Machine

/-- The answer of a frame that executed `n` instructions and brought the machine to `u`. -/
def Frame.of (number n : Nat) (u : Machine) : Frame :=
  ⟨number, n, u.state.draw, u.closed.state.soundActive, u.state.blocking, u.state.halted,
    u.state.quit⟩

/-- The frame was completed, and another one counts. -/
def Hosted.completed (h : Hosted) (u : Machine) : Hosted :=
  ⟨u.closed, { h.host with frames := h.host.frames + 1 }⟩

namespace Host

open Machine (Turn BrokenTurn)

variable {u : Machine} {f : Fault} {h : Hosted}

theorem ends_burst (n done : Nat) (m : Machine) :
    Ends (burst n done)
      (fun k u => ∃ ss, k = done + ss.length ∧ m.Executes ss u ∧ ss.length ≤ n ∧
        (ss.length < n → u.state.terminal = true ∨ u.state.blocking = true))
      (fun f u => ∃ ss v, m.Executes ss v ∧ ss.length < n ∧ v.Active ∧ v.step = .error f u) m := by
  -- one instruction is in front of those that the rest of the burst executes
  induction n generalizing done m with
  | zero => exact ⟨[], rfl, Machine.executes_nil.2 rfl, by simp, by simp⟩
  | succ n ih =>
    rw [burst, ends_bind, Machine.ends_inspect]
    cases hstop : m.state.terminal || m.state.blocking with
    | true =>
      have hwhy : m.state.terminal = true ∨ m.state.blocking = true := by simpa using hstop
      exact ⟨[], rfl, Machine.executes_nil.2 rfl, by simp, fun _ => hwhy⟩
    | false =>
      have ha : m.Active := by simpa [Machine.Active] using hstop
      simp only [Bool.false_eq_true, if_false]
      rw [ends_bind, ends_discard]
      refine Ends.of_forall (fun s t hs => ?_) fun f t hs => ?_
      · have hcons {ss : List Snapshot} {v : Machine} (h : t.Executes ss v) : m.Executes (s :: ss) v :=
          Machine.executes_cons.2 ⟨ha.executed hs, t, hs, h⟩
        refine (ih (done + 1) t).imp ?_ ?_
        · rintro k u ⟨ss, rfl, hss, hroom, hwhy⟩
          refine ⟨s :: ss, ?_, hcons hss, Nat.succ_le_succ hroom, fun hlt => ?_⟩
          · rw [List.length_cons]
            omega
          · exact hwhy (Nat.lt_of_succ_lt_succ hlt)
        · rintro f u ⟨ss, v, hss, hroom, hv, he⟩
          exact ⟨s :: ss, v, hcons hss, Nat.succ_lt_succ hroom, hv, he⟩
      · exact ⟨[], m, Machine.executes_nil.2 rfl, Nat.succ_pos n, ha, hs⟩

theorem ends_frameCycles (room : Nat) (m : Machine) :
    Ends (frameCycles room) (fun k u => ∃ ss, k = ss.length ∧ Turn room m ss u)
      (fun f u => ∃ ss, BrokenTurn room m ss f u) m := by
  rw [frameCycles, ends_bind, Machine.ends_inspect]
  cases hb : m.state.blocking with
  | true =>
    simp only [if_true]
    rw [ends_bind, ends_discard]
    exact Ends.of_forall (fun got u hr => ⟨[], rfl, .answered hb hr⟩) fun f u hr =>
      ⟨[], .unanswered hb hr⟩
  | false =>
    simp only [Bool.false_eq_true, if_false]
    refine (ends_burst room 0 m).imp ?_ ?_
    · rintro k u ⟨ss, rfl, hss, hroom, hstop⟩
      exact ⟨ss, Nat.zero_add _, .played hb hss hroom hstop⟩
    · rintro f u ⟨ss, v, hss, hroom, hv, hs⟩
      exact ⟨ss, .broke hb hss hroom hv hs⟩

/-- All that a frame can come to. -/
inductive FrameOutcome (h : Hosted) : EStateM.Result Fault Hosted Frame → Prop
  | completed {ss : List Snapshot} {u : Machine} (ht : Turn h.host.cyclesPerFrame h.machine ss u) :
    FrameOutcome h (.ok (.of (h.host.frames + 1) ss.length u) (h.completed u))
  | broken {ss : List Snapshot} {f : Fault} {u : Machine}
    (ht : BrokenTurn h.host.cyclesPerFrame h.machine ss f u) :
    FrameOutcome h (.error f ⟨u, h.host⟩)

theorem runFrame_of_ok {k : Nat} (hk : frameCycles h.host.cyclesPerFrame h.machine = .ok k u) :
    runFrame h = .ok (.of (h.host.frames + 1) k u) (h.completed u) := by
  have hturn : onMachine (frameCycles h.host.cyclesPerFrame) h = .ok k ⟨u, h.host⟩ := by
    unfold onMachine
    dsimp only
    rw [hk]
  have hg : (get : EStateM Fault Hosted Hosted) h = .ok h h := rfl
  rw [runFrame, bind_of_ok hg, bind_of_ok hturn]
  rfl

theorem runFrame_of_error (hk : frameCycles h.host.cyclesPerFrame h.machine = .error f u) :
    runFrame h = .error f ⟨u, h.host⟩ := by
  have hturn : onMachine (frameCycles h.host.cyclesPerFrame) h = .error f ⟨u, h.host⟩ := by
    unfold onMachine
    dsimp only
    rw [hk]
  have hg : (get : EStateM Fault Hosted Hosted) h = .ok h h := rfl
  rw [runFrame, bind_of_ok hg, bind_of_error hturn]

theorem runFrame_outcome (h : Hosted) : FrameOutcome h (runFrame h) := by
  have hturn := ends_frameCycles h.host.cyclesPerFrame h.machine
  cases hk : frameCycles h.host.cyclesPerFrame h.machine with
  | ok k u =>
    obtain ⟨ss, rfl, ht⟩ := hturn.ok hk
    rw [runFrame_of_ok hk]
    exact .completed ht
  | error f u =>
    obtain ⟨ss, ht⟩ := hturn.error hk
    rw [runFrame_of_error hk]
    exact .broken ht

variable {t : Hosted} {frame : Frame}

theorem runFrame_eq_ok (hr : runFrame h = .ok frame t) :
    ∃ ss u, Turn h.host.cyclesPerFrame h.machine ss u ∧
      frame = .of (h.host.frames + 1) ss.length u ∧ t = h.completed u := by
  have ho := runFrame_outcome h
  rw [hr] at ho
  cases ho with
  | completed ht => exact ⟨_, _, ht, rfl, rfl⟩

theorem runFrame_eq_error (hr : runFrame h = .error f t) :
    ∃ ss u, BrokenTurn h.host.cyclesPerFrame h.machine ss f u ∧ t = ⟨u, h.host⟩ := by
  have ho := runFrame_outcome h
  rw [hr] at ho
  cases ho with
  | broken ht => exact ⟨_, _, ht, rfl⟩

section Broken

variable {m v u : Machine} {ss : List Snapshot} {n room done : Nat}

/-- A frame that finds the machine waiting looks for a key, and that is all. -/
theorem frameCycles_of_blocking (hb : m.state.blocking = true) (room : Nat) :
    frameCycles room m = ((fun _ => 0) <$> Machine.resolveKey) m := by
  rw [frameCycles, bind_of_ok (Machine.inspect_of hb)]
  cases hr : m.resolveKey with
  | ok got u =>
    rw [map_of_ok _ hr]
    exact bind_of_ok (map_of_ok _ hr)
  | error f u =>
    rw [map_of_error _ hr]
    exact bind_of_error (map_of_error _ hr)

theorem frameCycles_of_running (hb : m.state.blocking = false) (room : Nat) :
    frameCycles room m = burst room 0 m := by
  rw [frameCycles, bind_of_ok (Machine.inspect_of hb)]
  rfl

theorem burst_of_active (ha : m.Active) :
    burst (n + 1) done m = match m.step with
      | .ok _ t => burst n (done + 1) t
      | .error f t => .error f t := by
  have hgoes : (m.state.terminal || m.state.blocking) = false := by
    rw [ha.1, ha.2]
    rfl
  rw [burst, bind_of_ok (Machine.inspect_of hgoes)]
  change (discard Machine.step >>= fun _ => burst n (done + 1)) m = _
  cases hs : m.step with
  | ok s t => exact bind_of_ok (map_of_ok _ hs)
  | error f t => exact bind_of_error (map_of_error _ hs)

/-- A cycle that fails before the room is used up breaks the burst. -/
theorem burst_of_broken (h : m.Executes ss v) (hroom : ss.length < n) (ha : v.Active)
    (hs : v.step = .error f u) : burst n done m = .error f u := by
  induction ss generalizing m n done with
  | nil =>
    obtain rfl := Machine.executes_nil.1 h
    obtain ⟨n, rfl⟩ := Nat.exists_eq_add_one.2 hroom
    rw [burst_of_active ha, hs]
  | cons s ss ih =>
    obtain ⟨hex, t, ht, hrest⟩ := Machine.executes_cons.1 h
    obtain ⟨d, hd⟩ := Option.isSome_iff_exists.1 hex
    have hm : m.Active := (Machine.step_eq_ok ht hd).1
    obtain ⟨n, rfl⟩ := Nat.exists_eq_add_one.2 (Nat.zero_lt_of_lt hroom)
    rw [burst_of_active hm, ht]
    exact ih hrest (Nat.lt_of_succ_lt_succ hroom)

theorem frameCycles_of_broken (h : BrokenTurn room m ss f u) : frameCycles room m = .error f u := by
  cases h with
  | unanswered hb hr =>
    rw [frameCycles_of_blocking hb]
    exact map_of_error _ hr
  | broke hb h hroom ha hs =>
    rw [frameCycles_of_running hb]
    exact burst_of_broken h hroom ha hs

end Broken

theorem runFrame_of_broken {ss : List Snapshot}
    (ht : BrokenTurn h.host.cyclesPerFrame h.machine ss f u) : runFrame h = .error f ⟨u, h.host⟩ :=
  runFrame_of_error (frameCycles_of_broken ht)

end Host

end SpriteVM
