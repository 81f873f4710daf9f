import SpriteVM.Proofs.Command.Arguments
import SpriteVM.Proofs.Host.Invariant
import SpriteVM.Proofs.Setup

namespace SpriteVM.Command

open Machine (Prepared)

section

variable (read : Reader) (fs : Files) (entropy : Int) (a : Arguments)

/-- Why there is nothing to run, and the family of the error that says so, if it is an error. -/
inductive Unloaded : Option FaultClass → Prop
  | settings {path : String} {f : SettingsFault} (hc : a.config = some path)
    (hf : Settings.Rejected read fs path f) : Unloaded (some f.kind)
  | unnamed {s : Settings} (hs : settingsOf read fs a.config = .ok s)
    (hp : Setup.programPath a.program (override a s) = none) : Unloaded none
  | program {s : Settings} {path : String} {f : Fault} (hs : settingsOf read fs a.config = .ok s)
    (hp : Setup.programPath a.program (override a s) = some path)
    (hf : Setup.Unloadable fs path f) : Unloaded (some f.kind)

/-- The settings of the run that is asked for, and the host and the machine that it begins with. -/
inductive Launched : Settings → Hosted → Prop
  | mk {s : Settings} {path : String} {setup : Setup} {host : Host}
    (hs : settingsOf read fs a.config = .ok s)
    (hp : Setup.programPath a.program (override a s) = some path)
    (hb : Setup.build (override a s) (some path) fs entropy = .ok setup)
    (hh : Host.ofCycles (override a s).cyclesPerFrame = .ok host) :
    Launched (override a s) ⟨echoing (override a s) setup.machine, host⟩

/-- The exit status for each way to end. An error of the family of values is not expected while
something is loaded, and the command breaks off on it. -/
inductive Ending (patience : Nat) : Nat → Prop
  | refused {k : Option FaultClass} (hu : Unloaded read fs a k) (hk : k ≠ some .value) :
    Ending patience 2
  | escaped (hu : Unloaded read fs a (some .value)) : Ending patience 1
  | failed {s : Settings} {h : Hosted} (hl : Launched read fs entropy a s h)
    (hf : Host.CycleFails s.maxFrames patience h) : Ending patience 3
  | unknown {s : Settings} {h t : Hosted} {last : Option Frame}
    (hl : Launched read fs entropy a s h)
    (hr : Host.run s.maxFrames patience h = .ok (some last) t)
    (hq : t.machine.state.quit = true) (hu : t.machine.LastUnknown) : Ending patience 1
  | rested {s : Settings} {h t : Hosted} {last : Option Frame}
    (hl : Launched read fs entropy a s h)
    (hr : Host.run s.maxFrames patience h = .ok (some last) t)
    (hq : t.machine.state.quit = false)
    (hw : t.machine.state.halted = true ∨
      t.machine.state.blocking = true ∧ ¬ t.machine.state.KeyHeld ∨
      ∃ n, s.maxFrames = some n ∧ t.host.frames = n.toNat) : Ending patience 0

end

variable {read : Reader} {fs : Files} {entropy : Int} {a : Arguments} {patience : Nat}
  {s : Settings} {h t : Hosted} {f : Fault} {k : Option FaultClass}

/-- What is known of the machine that a run begins with. -/
theorem echoing_prepared {m : Machine} (hm : m.Prepared) (s : Settings) :
    (echoing s m).Sound Bus.blank.layout ∧ (echoing s m).trace.Calm ∧
      (echoing s m).state.quit = false := by
  unfold echoing
  split
  · refine ⟨⟨hm.sound.state, hm.sound.layout⟩, ?_, hm.quit⟩
    have hhooks : (m.trace.add echo).hooks = [echo] := by
      simp [Trace.add, Trace.registered, hm.hooks]
    intro hook hmem message
    rw [hhooks, List.mem_singleton] at hmem
    rw [hmem]
    simp [echo]
  · refine ⟨hm.sound, ?_, hm.quit⟩
    intro hook hmem
    rw [hm.hooks] at hmem
    cases hmem

theorem settingsOf_valid {config : Option String} (hs : settingsOf read fs config = .ok s) :
    s.Valid := by
  cases config with
  | none =>
    obtain rfl := Except.ok.inj hs
    exact Settings.standard_valid
  | some path => exact Settings.ofFile_valid hs

/-- The end for an error of this family, or for none at all, met while something is loaded. -/
structure EndsUnloaded (k : Option FaultClass) (o : Outcome) : Prop where
  status : o.status? = some (if k = some .value then 1 else 2)
  escapes : o.escapes = true ↔ k = some .value

theorem endsUnloaded_refusal (hk : k ≠ some .value) (message : String) :
    EndsUnloaded k (refusal message) where
  status := by
    rw [if_neg hk]
    rfl
  escapes := by simp [hk, refusal, Outcome.escapes]

/-- An error is reported if its family is among those expected, which are all but that of values. -/
theorem endsUnloaded_ite {kind : FaultClass} {expected : Bool} (he : expected = true ↔ kind ≠ .value)
    (message : String) :
    EndsUnloaded (some kind) (if expected then refusal message else .crash kind) := by
  by_cases hv : kind = .value
  · rw [if_neg fun h => he.1 h hv]
    subst hv
    exact ⟨rfl, by simp [Outcome.escapes]⟩
  · rw [if_pos (he.2 hv)]
    exact endsUnloaded_refusal (by simpa using hv) message

theorem FileCause.expected_iff (cause : FileCause) :
    cause.kind.isA .system = true ↔ cause.kind ≠ .value := by
  cases cause <;> decide

theorem ConfigFault.expected_iff (f : ConfigFault) :
    f.kind.isA .configuration = true ↔ f.kind ≠ .value := by
  rcases f.kind_cases with hk | hk
  · rw [hk]
    decide
  · rw [hk]
    decide

theorem settingsRefused_config {f : ConfigFault} (hf : ∀ file, f ≠ .malformed file) :
    settingsRefused (.config f) =
      if f.kind.isA .configuration then refusal f.message else .crash f.kind := by
  cases f with
  | malformed file => exact absurd rfl (hf file)
  | _ => rfl

theorem settingsRefused_ends {path : String} {f : SettingsFault}
    (hf : Settings.Rejected read fs path f) : EndsUnloaded (some f.kind) (settingsRefused f) := by
  cases hf with
  | unreadable hr =>
    obtain ⟨cause, rfl⟩ := Files.read_eq_error hr
    exact endsUnloaded_ite (FileCause.expected_iff cause) _
  | encoding => exact ⟨rfl, by decide⟩
  | @refused _ _ f =>
    -- only a text that cannot be taken apart is reported in a way of its own
    change EndsUnloaded (some (Settings.named path f).kind) _
    by_cases hm : ∃ file, Settings.named path f = .malformed file
    · obtain ⟨file, hm⟩ := hm
      rw [hm]
      exact ⟨rfl, iff_of_false Bool.false_ne_true nofun⟩
    · rw [settingsRefused_config (not_exists.1 hm)]
      exact endsUnloaded_ite (ConfigFault.expected_iff _) _

theorem carryOut_of_unloaded (hu : Unloaded read fs a k) (entropy : Int) (patience : Nat) :
    EndsUnloaded k (carryOut read fs entropy patience a) := by
  cases hu with
  | @settings path f hc hf =>
    have hs : settingsOf read fs a.config = .error f := by
      rw [hc]
      exact Settings.ofFile_of_rejected hf
    unfold carryOut
    rw [hs]
    exact settingsRefused_ends hf
  | unnamed hs hp =>
    unfold carryOut
    rw [hs]
    dsimp only
    rw [hp]
    exact endsUnloaded_refusal (by decide) _
  | @program s path f hs hp hf =>
    have hb := Setup.build_of_unloadable (Setup.programPath_ne_empty hp) hf (override a s) entropy
    unfold carryOut
    rw [hs]
    dsimp only
    rw [hp]
    dsimp only
    rw [hb]
    refine endsUnloaded_ite ?_ _
    cases hf with
    | unreadable hr =>
      obtain ⟨cause, rfl⟩ := Files.read_eq_error hr
      change (cause.kind.isA .programFormat || cause.kind.isA .system) = true ↔ cause.kind ≠ .value
      cases cause <;> decide
    | refused _ hf =>
      rw [hf.kind]
      decide

/-- The log of a run up to its start. -/
def opening (s : Settings) (path : String) (setup : Setup) : List LogRecord :=
  setup.loaded.toList.flatMap (LogRecord.ofLoading · setup.machine.state.screen) ++
    [LogRecord.ofStart path s.seed s.cyclesPerFrame]

theorem drive_eq {path : String} {setup : Setup} {host : Host}
    (hh : Host.ofCycles s.cyclesPerFrame = .ok host) :
    drive a s path setup patience = report a s (opening s path setup)
      (Host.run s.maxFrames patience ⟨echoing s setup.machine, host⟩) := by
  have hstate : (echoing s setup.machine).state = setup.machine.state := by
    unfold echoing
    split <;> rfl
  unfold drive
  rw [hh]
  dsimp only
  rw [hstate]
  rfl

theorem carryOut_eq {path : String} {setup : Setup} (hs : settingsOf read fs a.config = .ok s)
    (hp : Setup.programPath a.program (override a s) = some path)
    (hb : Setup.build (override a s) (some path) fs entropy = .ok setup) :
    carryOut read fs entropy patience a = drive a (override a s) path setup patience := by
  unfold carryOut
  rw [hs]
  dsimp only
  rw [hp]
  dsimp only
  rw [hb]

theorem carryOut_of_launched (hl : Launched read fs entropy a s h) (patience : Nat) :
    ∃ before, carryOut read fs entropy patience a =
      report a s before (Host.run s.maxFrames patience h) := by
  cases hl with
  | mk hs hp hb hh => exact ⟨_, by rw [carryOut_eq hs hp hb, drive_eq hh]⟩

/-- A run is of a machine that was set up, by a host that has run no frame. -/
theorem Launched.begins (hl : Launched read fs entropy a s h) (ha : a.Valid) :
    (h.machine.Sound Bus.blank.layout ∧ h.machine.trace.Calm) ∧ h.machine.state.quit = false ∧
      h.host.frames = 0 := by
  cases hl with
  | mk hs hp hb hh =>
    have hv := override_valid ha (settingsOf_valid hs)
    have hm := Setup.build_prepared (Setup.programPath_ne_empty hp) hv hb
    obtain ⟨hsound, hcalm, hquit⟩ := echoing_prepared hm (override _ _)
    refine ⟨⟨hsound, hcalm⟩, hquit, ?_⟩
    unfold Host.ofCycles at hh
    split at hh
    · obtain rfl := Except.ok.inj hh
      rfl
    · cases hh

section Report

variable (before : List LogRecord)

theorem report_error (hf : f.kind ∈ Machine.StepFault.families) :
    (report a s before (.error f t)).status? = some 3 ∧
      (report a s before (.error f t)).escapes = false := by
  have hengine : f.kind.isA .engine = true := by
    revert hf
    generalize f.kind = kind
    intro hf
    cases kind <;> simp_all [Machine.StepFault.families] <;> decide
  simp only [report, faulted, hengine, if_true]
  exact ⟨rfl, rfl⟩

theorem report_ok (last : Option Frame) :
    (report a s before (.ok (some last) t)).status? =
        some (if t.machine.state.quit then 1 else 0) ∧
      (report a s before (.ok (some last) t)).escapes = false := by
  refine ⟨?_, rfl⟩
  change some (summary t s.frameRate).1 = _
  unfold summary
  dsimp only
  cases t.machine.state.quit with
  | true => rfl
  | false =>
    rw [if_neg Bool.false_ne_true]
    split
    · rfl
    · split <;> rfl

end Report

/-- A run does not break off, and the way it ends is told by the exit status. -/
theorem Launched.ends (hl : Launched read fs entropy a s h) (ha : a.Valid) :
    (carryOut read fs entropy patience a).escapes = false ∧
      ∀ n, (carryOut read fs entropy patience a).status? = some n →
        Ending read fs entropy a patience n := by
  obtain ⟨before, ho⟩ := carryOut_of_launched hl patience
  obtain ⟨⟨hsound, hcalm⟩, hquit, hframes⟩ := hl.begins ha
  rw [ho]
  cases hr : Host.run s.maxFrames patience h with
  | error f t =>
    obtain ⟨hf, hfamily⟩ := Host.broken_cycle Bus.blank_oneMemory hsound hcalm hr
    obtain ⟨hstatus, hescapes⟩ := report_error before hfamily
    refine ⟨hescapes, fun n hn => ?_⟩
    obtain rfl := Option.some.inj (hstatus.symm.trans hn)
    exact .failed hl hf
  | ok answer t =>
    cases answer with
    | none => exact ⟨rfl, nofun⟩
    | some last =>
      obtain ⟨hstatus, hescapes⟩ := report_ok before last
      refine ⟨hescapes, fun n hn => ?_⟩
      obtain rfl := Option.some.inj (hstatus.symm.trans hn)
      obtain ⟨ended, hrun, -⟩ := Host.run_eq_ok hr
      have hwent := Host.runFrames_outcome (Host.allowed s.maxFrames patience) none h
      cases hq : t.machine.state.quit with
      | true =>
        -- it had not quit when the run began, so there is nothing to explain yet
        have hexplained : h.machine.QuitExplained := by
          intro hbefore
          rw [hquit] at hbefore
          exact absurd hbefore Bool.false_ne_true
        have hlast := hwent.preserved Machine.quitExplained_preserved hexplained hrun
        exact .unknown hl hr hq (hlast hq)
      | false =>
        refine .rested hl hr hq ?_
        rcases Host.rest_or_limit hr with (ht | hwait) | ⟨n, hn, hlength⟩
        · exact .inl (by simpa [State.terminal, hq] using ht)
        · exact .inr (.inl hwait)
        · refine .inr (.inr ⟨n, hn, ?_⟩)
          rw [hwent.frames hrun, hframes, hlength, Nat.zero_add]

/-- Whatever ends the command gives the exit status. -/
theorem Ending.status {n : Nat} (he : Ending read fs entropy a patience n) (ha : a.Valid) :
    (carryOut read fs entropy patience a).status? = some n := by
  cases he with
  | refused hu hk => rw [(carryOut_of_unloaded hu entropy patience).status, if_neg hk]
  | escaped hu => exact (carryOut_of_unloaded hu entropy patience).status
  | failed hl hf =>
    obtain ⟨before, ho⟩ := carryOut_of_launched hl patience
    obtain ⟨⟨hsound, hcalm⟩, -⟩ := hl.begins ha
    obtain ⟨f, t, hr⟩ := (Host.run_fails_iff Bus.blank_oneMemory hsound hcalm).2 hf
    rw [ho, hr]
    exact (report_error before (Host.broken_cycle Bus.blank_oneMemory hsound hcalm hr).2).1
  | unknown hl hr hq | rested hl hr hq =>
    obtain ⟨before, ho⟩ := carryOut_of_launched hl patience
    rw [ho, hr, (report_ok before _).1, hq]
    rfl

end SpriteVM.Command
