import SpriteVM.Proofs.Host.Cycles
import SpriteVM.Proofs.Machine.CoreAction
import SpriteVM.Proofs.View

namespace SpriteVM

variable {name : String}

namespace Trace

variable {u w : Trace}

/-- The one trace calls no hooks. The other calls the hook of this name, which does nothing about it, and
so far it was called for what the journals of both have. -/
structure Echoes (name : String) (u w : Trace) : Prop where
  silent : u.enabled = false
  calls : u.calls = #[]
  hooks : w.hooks = [⟨name, []⟩]
  enabled : w.enabled = true
  journal : w.journal = u.journal
  told : w.calls.map (·.snapshot) = u.journal

theorem notify_silent (h : u.enabled = false) (s : Snapshot) :
    notify s u = .ok () { u with journal := u.journal.push s } := by
  obtain ⟨hooks, enabled, calls, journal, stopAsked⟩ := u
  obtain rfl : enabled = false := h
  rfl

theorem notify_listening (hh : w.hooks = [⟨name, []⟩]) (he : w.enabled = true) (s : Snapshot) :
    notify s w =
      .ok () { w with journal := w.journal.push s, calls := w.calls.push ⟨name, s⟩ } := by
  obtain ⟨hooks, enabled, calls, journal, stopAsked⟩ := w
  obtain rfl : hooks = [⟨name, []⟩] := hh
  obtain rfl : enabled = true := he
  rfl

theorem Echoes.notify (h : Echoes name u w) (s : Snapshot) :
    ∃ u' w', Trace.notify s u = .ok () u' ∧ Trace.notify s w = .ok () w' ∧ Echoes name u' w' := by
  refine ⟨_, _, notify_silent h.silent s, notify_listening h.hooks h.enabled s, ?_⟩
  refine ⟨h.silent, h.calls, h.hooks, h.enabled, ?_, ?_⟩
  · exact congrArg (·.push s) h.journal
  · rw [Array.map_push, h.told]

end Trace

namespace Machine

/-- But for their traces, of which one echoes the other, the machines are the same. -/
def Echoed (name : String) (m t : Machine) : Prop :=
  ∃ w, Trace.Echoes name m.trace w ∧ t = { m with trace := w }

theorem OfCore.lockstep {α : Type} {act : Action α} (h : OfCore act) :
    Lockstep (Echoed name) act act := by
  obtain ⟨e, rfl⟩ := h
  rintro m _ ⟨w, hw, rfl⟩
  unfold onCore
  dsimp only
  cases e m.core with
  | ok a c => exact .ok ⟨w, hw, rfl⟩
  | error f c => exact .error ⟨w, hw, rfl⟩

/-- Of two such machines each cycle does the same, and the hook is told of the instruction. -/
theorem step_lockstep : Lockstep (Echoed name) step step := by
  rintro m _ ⟨w, hw, rfl⟩
  have ho := step_outcome m
  generalize m.step = r at ho
  have hsame {r' : EStateM.Result Fault Machine Snapshot}
      (h : CycleOutcome { m with trace := w } r') (hr : Related (Echoed name) r r') :
      Related (Echoed name) r (step { m with trace := w }) := by
    rw [h.step_eq]
    exact hr
  cases ho with
  | stopped ht => exact hsame (.stopped ht) (.error ⟨w, hw, rfl⟩)
  | waiting ht hb => exact hsame (.waiting ht hb) (.ok ⟨w, hw, rfl⟩)
  | counter ha hp => exact hsame (.counter ha hp) (.error ⟨w, hw, rfl⟩)
  | unreadable ha hp hr =>
    exact hsame (CycleOutcome.unreadable (m := { m with trace := w }) ha hp hr) (.error ⟨w, hw, rfl⟩)
  | failed ha hp hr he =>
    exact hsame (CycleOutcome.failed (m := { m with trace := w }) ha hp hr he) (.error ⟨w, hw, rfl⟩)
  | @hookFailed _ _ d b c f trace hr he hn =>
    obtain ⟨u', w', hu, -, -⟩ := hw.notify (m.report d c)
    rw [hu] at hn
    exact nomatch hn
  | @done ha hp d b c trace hr he hn =>
    obtain ⟨u', w', hu, hw', hecho⟩ := hw.notify (m.report d c)
    obtain ⟨-, rfl⟩ := EStateM.Result.ok.inj (hu.symm.trans hn)
    exact hsame (CycleOutcome.done (m := { m with trace := w }) ha hp hr he hw')
      (.ok ⟨w', hecho, rfl⟩)

end Machine

namespace Host

open Machine (Echoed OfCore)

variable {limit : Option Int} {patience : Nat}

theorem burst_lockstep (n done : Nat) :
    Lockstep (Echoed name) (burst n done) (burst n done) := by
  induction n generalizing done with
  | zero => exact Lockstep.pure done
  | succ n ih =>
    refine (OfCore.inspect _).lockstep.bind fun stop => ?_
    cases stop with
    | true => exact Lockstep.pure done
    | false => exact (Machine.step_lockstep.map _).bind fun _ => ih (done + 1)

theorem frameCycles_lockstep (room : Nat) :
    Lockstep (Echoed name) (frameCycles room) (frameCycles room) := by
  refine (OfCore.inspect _).lockstep.bind fun waiting => ?_
  cases waiting with
  | true => exact (OfCore.resolveKey.lockstep.map _).bind fun _ => Lockstep.pure 0
  | false => exact burst_lockstep room 0

/-- The machines are such a pair, and their hosts have come equally far. -/
def Echoing (name : String) (h t : Hosted) : Prop := Echoed name h.machine t.machine ∧ t.host = h.host

theorem Echoing.state {h t : Hosted} (hht : Echoing name h t) :
    t.machine.state = h.machine.state := by
  obtain ⟨⟨w, -, ht⟩, -⟩ := hht
  rw [ht]
  rfl

theorem closed_echoed {u v : Machine} (h : Echoed name u v) : Echoed name u.closed v.closed := by
  obtain ⟨w, hw, rfl⟩ := h
  exact ⟨w, hw, rfl⟩

theorem frame_of_echoed {u v : Machine} (h : Echoed name u v) (number n : Nat) :
    Frame.of number n v = Frame.of number n u := by
  obtain ⟨w, -, rfl⟩ := h
  rfl

theorem runFrame_lockstep : Lockstep (Echoing name) runFrame runFrame := by
  rintro h t ⟨hm, hhost⟩
  have hturn := frameCycles_lockstep h.host.cyclesPerFrame h.machine t.machine hm
  cases hk : frameCycles h.host.cyclesPerFrame h.machine with
  | ok k u =>
    rw [hk] at hturn
    obtain ⟨v, hv, huv⟩ := hturn.of_ok
    rw [← hhost] at hv
    rw [runFrame_of_ok hk, runFrame_of_ok hv, frame_of_echoed huv, hhost]
    exact .ok ⟨closed_echoed huv, by rw [Hosted.completed, Hosted.completed, hhost]⟩
  | error f u =>
    rw [hk] at hturn
    obtain ⟨v, hv, huv⟩ := hturn.of_error
    rw [← hhost] at hv
    rw [runFrame_of_error hk, runFrame_of_error hv]
    exact .error ⟨huv, hhost⟩

theorem runFrames_lockstep (n : Nat) (last : Option Frame) :
    Lockstep (Echoing name) (runFrames n last) (runFrames n last) := by
  induction n generalizing last with
  | zero => exact Lockstep.pure (last, false)
  | succ n ih =>
    intro h t hht
    have hframe := runFrame_lockstep h t hht
    rw [runFrames_succ, runFrames_succ, hht.state]
    split
    · exact .ok hht
    · cases hr : runFrame h with
      | error f u =>
        rw [hr] at hframe
        obtain ⟨v, hv, huv⟩ := hframe.of_error
        rw [hv]
        exact .error huv
      | ok frame u =>
        rw [hr] at hframe
        obtain ⟨v, hv, huv⟩ := hframe.of_ok
        rw [hv]
        dsimp only
        rw [huv.state]
        split
        · exact .ok huv
        · exact ih (some frame) u v huv

theorem run_lockstep (limit : Option Int) (patience : Nat) :
    Lockstep (Echoing name) (run limit patience) (run limit patience) := by
  rw [run_eq]
  exact (runFrames_lockstep _ none).map _

end Host

end SpriteVM
