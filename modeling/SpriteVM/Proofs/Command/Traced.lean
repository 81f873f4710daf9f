import SpriteVM.Proofs.Command.Status
import SpriteVM.Proofs.Command.TraceOption
import SpriteVM.Proofs.Host.Echo

namespace SpriteVM

def Settings.traced (s : Settings) : Settings := { s with trace := true }

/-- A trace that calls hooks as soon as there are any. -/
def Machine.listening (m : Machine) : Machine :=
  { m with trace := { m.trace with enabled := true } }

namespace Setup

open Machine (OfCore)

variable {fs : Files} {s : Settings} {given : Option String} {entropy : Int} {setup : Setup} {f : Fault}

theorem holdKeys_ofCore (keys : List Int) : OfCore (holdKeys keys) := by
  induction keys with
  | nil => exact OfCore.pure ()
  | cons key rest ih => exact (OfCore.setKey key true).bind fun _ => ih

theorem loadProgram_ofCore (fs : Files) (path : Option String) : OfCore (loadProgram fs path) := by
  unfold loadProgram
  cases path with
  | none => exact OfCore.pure none
  | some path =>
    dsimp only
    cases fs.read path with
    | error f => exact OfCore.throw f
    | ok image => exact (OfCore.load image).bind fun _ => OfCore.pure _

/-- But for the trace, what is done to a new machine does not depend on whether it is asked for. -/
theorem prepare_eq (s : Settings) (fs : Files) (path : Option String) :
    ∃ e : Exec (Option Loaded), ∀ (on : Bool) (m : Machine), m.trace = Trace.off →
      prepare { s with trace := on } fs path m =
        Machine.onCore e { m with trace := ⟨[], on, #[], #[], false⟩ } := by
  have hrest : OfCore (do
      let loaded ← loadProgram fs path
      holdKeys s.keys
      return loaded) :=
    (loadProgram_ofCore fs path).bind fun _ => (holdKeys_ofCore s.keys).bind fun _ => OfCore.pure _
  obtain ⟨e, he⟩ := hrest
  refine ⟨e, fun on m hm => ?_⟩
  have htrace : Machine.onTrace (modify fun t => { t with enabled := t.enabled || on }) m =
      .ok () { m with trace := { m.trace with enabled := m.trace.enabled || on } } := rfl
  rw [prepare, bind_of_ok htrace, hm, ← he]
  rfl

/-- What is built if a trace is asked for, where else it would not be. -/
theorem build_traced (hs : s.trace = false) :
    build s.traced given fs entropy = (build s given fs entropy).map
        (fun setup => { setup with machine := setup.machine.listening }) ∧
      ∀ setup, build s given fs entropy = .ok setup →
        setup.machine.trace = Trace.off ∧ setup.machine.cycles = 0 := by
  obtain ⟨m, hm, -⟩ := Machine.create_prepared (s.seed.getD entropy)
  have hnew : m.trace = Trace.off ∧ m.cycles = 0 := by
    obtain ⟨u, -, rfl⟩ := Machine.create_eq_ok.1 hm
    exact ⟨rfl, rfl⟩
  obtain ⟨e, he⟩ := prepare_eq s fs (programPath given s)
  have hplain : prepare s fs (programPath given s) m =
      Machine.onCore e { m with trace := ⟨[], false, #[], #[], false⟩ } := by
    have hsame : { s with trace := false } = s := by rw [← hs]
    have hfalse := he false m hnew.1
    rwa [hsame] at hfalse
  have htraced : prepare s.traced fs (programPath given s.traced) m =
      Machine.onCore e { m with trace := ⟨[], true, #[], #[], false⟩ } := he true m hnew.1
  have hm' : Machine.create Bus.blank (s.traced.seed.getD entropy) = .ok m := hm
  rw [build_eq hm, build_eq hm', hplain, htraced]
  unfold Machine.onCore
  dsimp only
  cases e m.core with
  | error f c =>
    dsimp only
    refine ⟨rfl, fun setup hb => ?_⟩
    cases hb
  | ok loaded c =>
    dsimp only
    refine ⟨rfl, fun setup hb => ?_⟩
    obtain rfl := Except.ok.inj hb
    exact ⟨rfl, hnew.2⟩

end Setup

namespace Command

open Host (Echoing)

variable {read : Reader} {fs : Files} {entropy : Int} {a : Arguments} {patience : Nat}
  {s : Settings} {h t : Hosted} {args args' : List String}

theorem override_traced (a : Arguments) (s : Settings) :
    override a.traced s = (override a s).traced := by
  simp [override, Arguments.traced, Settings.traced]

theorem echoing_listening {m : Machine} (hm : m.trace = Trace.off) (s : Settings) :
    Machine.Echoed echo.name m (echoing s.traced m.listening) := by
  have hasked : s.traced.trace = true := rfl
  refine ⟨⟨[echo], true, #[], #[], false⟩, ?_, ?_⟩
  · rw [hm]
    exact ⟨rfl, rfl, rfl, rfl, rfl, Array.map_empty⟩
  · rw [echoing, if_pos hasked, Machine.listening, hm]
    rfl

/-- The run that begins if a trace is asked for, beside the one that begins else. -/
theorem carryOut_traced (hl : Launched read fs entropy a s h) (hs : s.trace = false) (patience : Nat) :
    h.machine.trace = Trace.off ∧ h.machine.cycles = 0 ∧
      ∃ before t, Echoing echo.name h t ∧
        carryOut read fs entropy patience a = report a s before (Host.run s.maxFrames patience h) ∧
        carryOut read fs entropy patience a.traced =
          report a.traced s.traced before (Host.run s.maxFrames patience t) := by
  cases hl with
  | @mk s path setup host hset hp hb hh =>
    obtain ⟨hboth, hnew⟩ := @Setup.build_traced fs (override a s) (some path) entropy hs
    obtain ⟨htrace, hcycles⟩ := hnew setup hb
    have hplain : echoing (override a s) setup.machine = setup.machine := by
      rw [echoing, if_neg (by simp [hs])]
    have hp' : Setup.programPath a.traced.program (override a.traced s) = some path := by
      rw [override_traced]
      exact hp
    have hb' : Setup.build (override a.traced s) (some path) fs entropy =
        .ok { setup with machine := setup.machine.listening } := by
      rw [override_traced, hboth, hb]
      rfl
    have hh' : Host.ofCycles (override a s).traced.cyclesPerFrame = .ok host := hh
    have hplainly : carryOut read fs entropy patience a = report a (override a s)
        (opening (override a s) path setup)
        (Host.run (override a s).maxFrames patience ⟨setup.machine, host⟩) := by
      rw [carryOut_eq hset hp hb, drive_eq hh, hplain]
    rw [hplain]
    refine ⟨htrace, hcycles, opening (override a s) path setup,
      ⟨echoing (override a s).traced setup.machine.listening, host⟩,
      ⟨echoing_listening htrace (override a s), rfl⟩, hplainly, ?_⟩
    rw [carryOut_eq (a := a.traced) hset hp' hb', override_traced, drive_eq hh']
    rfl

/-- Where no run begins the trace makes no difference. -/
theorem carryOut_traced_of_not_launched (hl : ∀ s h, ¬ Launched read fs entropy a s h)
    (hs : ∀ s, settingsOf read fs a.config = .ok s → (override a s).trace = false) (patience : Nat) :
    carryOut read fs entropy patience a.traced = carryOut read fs entropy patience a := by
  unfold carryOut
  have hset : settingsOf read fs a.traced.config = settingsOf read fs a.config := rfl
  rw [hset]
  cases hs' : settingsOf read fs a.config with
  | error f => rfl
  | ok s =>
    dsimp only
    have hp : Setup.programPath a.traced.program (override a s).traced =
        Setup.programPath a.program (override a s) := rfl
    rw [override_traced, hp]
    cases hp' : Setup.programPath a.program (override a s) with
    | none => rfl
    | some path =>
      dsimp only
      rw [(Setup.build_traced (hs s hs')).1]
      cases hb : Setup.build (override a s) (some path) fs entropy with
      | error f => rfl
      | ok setup =>
        have hh : Host.ofCycles (override a s).traced.cyclesPerFrame =
            Host.ofCycles (override a s).cyclesPerFrame := rfl
        dsimp only [Except.map]
        unfold drive
        dsimp only
        rw [hh]
        cases hh' : Host.ofCycles (override a s).cyclesPerFrame with
        | error f => rfl
        | ok host => exact absurd (.mk hs' hp' hb hh') (hl _ _)

theorem unlines_append (l l' : List String) : unlines (l ++ l') = unlines l ++ unlines l' := by
  rw [unlines, unlines, unlines, List.map_append, String.join_append]

/-- What the journal of a machine reads like. -/
def journalLines (m : Machine) : List String := m.trace.journal.toList.map (·.traceText)

theorem echoed_of_echoing {name : String} (hht : Echoing name h t) :
    echoed h = [] ∧ echoed t = journalLines h.machine := by
  obtain ⟨⟨w, hw, ht⟩, -⟩ := hht
  refine ⟨by rw [echoed, hw.calls]; rfl, ?_⟩
  have hcalls : t.machine.trace.calls = w.calls := by rw [ht]
  rw [echoed, hcalls, journalLines, ← hw.told, Array.toList_map, List.map_map]
  rfl

section Report

variable {before : List LogRecord} {r r' : EStateM.Result Fault Hosted (Option (Option Frame))}

/-- The end of a run with a trace: what the hook wrote comes first. -/
theorem report_traced {name : String} (hr : Related (Echoing name) r r') {status : Nat}
    {out err : String} (h : report a s before r = .exit status out err) :
    report a.traced s.traced before r' =
      .exit status (unlines (journalLines (left r).machine) ++ out) err := by
  cases hr with
  | @error f h₁ h₂ hht =>
    obtain ⟨hsilent, hechoed⟩ := echoed_of_echoing hht
    obtain ⟨m₂, host₂⟩ := h₂
    obtain ⟨⟨w, hw, rfl⟩, rfl⟩ := hht
    simp only [report, faulted, hsilent, hechoed, hw.journal] at h ⊢
    split_ifs at h ⊢
    · obtain ⟨rfl, rfl, rfl⟩ := Outcome.exit.inj h
      exact congrArg₂ (Outcome.exit 3) String.append_empty.symm rfl
    · obtain ⟨rfl, rfl, rfl⟩ := Outcome.exit.inj h
      exact congrArg₂ (Outcome.exit 3) String.append_empty.symm rfl
  | @ok answer h₁ h₂ hht =>
    obtain ⟨hsilent, hechoed⟩ := echoed_of_echoing hht
    obtain ⟨m₂, host₂⟩ := h₂
    obtain ⟨⟨w, hw, rfl⟩, rfl⟩ := hht
    cases answer with
    | none => simp only [report, reduceCtorEq] at h
    | some last =>
      simp only [report, hsilent, hechoed, hw.journal, List.nil_append] at h ⊢
      obtain ⟨rfl, rfl, rfl⟩ := Outcome.exit.inj h
      rw [List.append_assoc, unlines_append]
      rfl

/-- A run that ends, and that nothing escapes from, ends with what it has written. -/
theorem report_exit {n : Nat} (he : (report a s before r).escapes = false)
    (hn : (report a s before r).status? = some n) :
    ∃ status out err, report a s before r = .exit status out err := by
  cases r with
  | error f t =>
    simp only [report, faulted] at he hn ⊢
    split_ifs at he hn ⊢
    · exact ⟨_, _, _, rfl⟩
    · exact ⟨_, _, _, rfl⟩
    · simp only [Outcome.escapes, reduceCtorEq] at he
  | ok answer t =>
    cases answer with
    | none => simp only [report, Outcome.status?, reduceCtorEq] at hn
    | some last => exact ⟨_, _, _, rfl⟩

end Report

/-- The lines that a run with a trace writes: the text of each instruction that its cycles execute. -/
def traceLines (limit : Option Int) (patience : Nat) (h : Hosted) : List String :=
  ((HostCall.run limit patience).starts h).filterMap fun x => x.cycled.map (·.traceText)

/-- They are what a machine that began with an empty journal has in it, one for each counted cycle. -/
theorem traceLines_eq (hm : h.machine.trace = Trace.off) (hc : h.machine.cycles = 0)
    (limit : Option Int) (patience : Nat) :
    journalLines (left (Host.run limit patience h)).machine = traceLines limit patience h ∧
      (traceLines limit patience h).length = (left (Host.run limit patience h)).machine.cycles := by
  have hthrough := (HostCall.run limit patience).act_through h
  rw [HostCall.act, left_map] at hthrough
  obtain ⟨ss, hss, he⟩ := hthrough.advances
  have hjournal : (left (Host.run limit patience h)).machine.trace.journal.toList = ss := by
    rw [hss.journal, hm]
    rfl
  have htext : ss.map (·.traceText) = (ss.filterMap (·.executed)).map (·.traceText) := by
    have hall := hss.executed
    clear hss he hjournal
    induction ss with
    | nil => rfl
    | cons s ss ih =>
      obtain ⟨hs, hrest⟩ := List.forall_mem_cons.1 hall
      obtain ⟨d, hd⟩ := Option.isSome_iff_exists.1 hs
      rw [List.map_cons, List.filterMap_cons, hd, ih hrest, Snapshot.traceText, hd]
      rfl
  have hlines : traceLines limit patience h =
      (((HostCall.run limit patience).starts h).filterMap (·.cycled)).map (·.traceText) := by
    rw [traceLines, List.map_filterMap]
  constructor
  · rw [journalLines, hjournal, htext, he, hlines]
  · rw [hlines, List.length_map, hthrough.cycles_eq, hc, Nat.zero_add]

/-- With the option for a trace put in, a run that ends writes one line for each instruction executed,
and then all that it writes else; the exit status stays. -/
theorem runBy_trace {parse : ArgumentParser} {stands : List String → Prop} (hparse : parse.Ranged)
    (htakes : parse.TakesTrace stands) {request : Request} {n : Nat}
    (hp : parse fs args = .ok request)
    (hplain : ∀ a, request = .run a → a.trace = false ∧
      ∀ s, settingsOf read fs a.config = .ok s → s.trace = false)
    (hadd : AddsTrace stands args args')
    (hends : (runBy parse read fs entropy patience args).status? = some n) :
    (∀ a s h, request = .run a → Launched read fs entropy a s h →
      let lines := traceLines s.maxFrames patience h
      ∃ status out err, runBy parse read fs entropy patience args = .exit status out err ∧
        runBy parse read fs entropy patience args' = .exit status (unlines lines ++ out) err ∧
        lines.length = (left (Host.run s.maxFrames patience h)).machine.cycles) ∧
      ((∀ a s h, request = .run a → ¬ Launched read fs entropy a s h) →
        runBy parse read fs entropy patience args' = runBy parse read fs entropy patience args) := by
  have hp' := htakes fs args args' request hadd hp
  cases request with
  | help =>
    constructor
    · intro a s h ha
      contradiction
    · intro _
      rw [runBy, runBy, hp, hp']
      rfl
  | run a =>
    obtain ⟨ha, hset⟩ := hplain a rfl
    have hrun : runBy parse read fs entropy patience args = carryOut read fs entropy patience a := by
      rw [runBy, hp]
    have hrun' : runBy parse read fs entropy patience args' =
        carryOut read fs entropy patience a.traced := by
      rw [runBy, hp']
      rfl
    have hnone (s : Settings) (hs : settingsOf read fs a.config = .ok s) :
        (override a s).trace = false := by
      simp [override, ha, hset s hs]
    rw [hrun] at hends ⊢
    rw [hrun']
    constructor
    · rintro _ s h ⟨⟩ hl
      have hs : s.trace = false := by
        cases hl with
        | mk hs => exact hnone _ hs
      obtain ⟨hm, hc, before, t, hht, hplainly, htraced⟩ := carryOut_traced hl hs patience
      obtain ⟨hlines, hlength⟩ := traceLines_eq hm hc s.maxFrames patience
      have hescapes : (carryOut read fs entropy patience a).escapes = false :=
        (hl.ends (hparse fs args a hp)).1
      rw [hplainly] at hends hescapes ⊢
      obtain ⟨status, out, err, hexit⟩ := report_exit hescapes hends
      refine ⟨status, out, err, hexit, ?_, hlength⟩
      rw [htraced, report_traced (Host.run_lockstep s.maxFrames patience h t hht) hexit, hlines]
    · intro hl
      exact carryOut_traced_of_not_launched (fun s h => hl a s h rfl) hnone patience

/-- A program of two instructions, the second of which halts the machine. -/
def haltingFiles : Files := (FileTree.ofList [("a.ch8", [0x60, 0x05, 0xFF, 0xFF])]).files

def haltingRun : Arguments := ⟨some "a.ch8", none, none, none, none, [], false, false, 0⟩

theorem runBy_trace_halting :
    Request.parse haltingFiles ["run", "a.ch8"] = .ok (.run haltingRun) ∧
      haltingRun.trace = false ∧
      AddsTrace OptionStands ["run", "a.ch8"] ["run", "--trace", "a.ch8"] ∧
      ∃ s h, Launched Yaml.read haltingFiles 0 haltingRun s h ∧
        unlines (traceLines s.maxFrames 1 h) = "0x0200 6005 LD V0, #$05\n0x0202 FFFF HALT\n" := by
  have hp : Request.parse haltingFiles ["run", "a.ch8"] = .ok (.run haltingRun) := by
    decide +kernel
  have hadd : AddsTrace OptionStands ["run", "a.ch8"] ["run", "--trace", "a.ch8"] :=
    ⟨["run"], ["a.ch8"], ⟨["run"], by simp, [], rfl, rfl⟩, rfl, rfl⟩
  have hplain : ∀ a, Request.run haltingRun = .run a → a.trace = false ∧
      ∀ s, settingsOf Yaml.read haltingFiles a.config = .ok s → s.trace = false := by
    rintro _ ⟨⟩
    refine ⟨rfl, fun s hs => ?_⟩
    obtain rfl := Except.ok.inj hs
    rfl
  have hrun : runBy Request.parse Yaml.read haltingFiles 0 1 ["run", "a.ch8"] =
      .exit 0 "Halted at 0x202 after 2 cycles.\n" "" := by
    decide +kernel
  have hrun' : runBy Request.parse Yaml.read haltingFiles 0 1 ["run", "--trace", "a.ch8"] =
      .exit 0 ("0x0200 6005 LD V0, #$05\n0x0202 FFFF HALT\n" ++
        "Halted at 0x202 after 2 cycles.\n") "" := by
    decide +kernel
  have hends : (runBy Request.parse Yaml.read haltingFiles 0 1 ["run", "a.ch8"]).status? = some 0 := by
    rw [hrun]
    rfl
  obtain ⟨hlaunched, hnot⟩ :=
    runBy_trace Request.parse_ranged Request.parse_takesTrace hp hplain hadd hends
  refine ⟨hp, rfl, hadd, ?_⟩
  by_cases hl : ∃ s h, Launched Yaml.read haltingFiles 0 haltingRun s h
  · obtain ⟨s, h, hl⟩ := hl
    obtain ⟨status, out, err, he, he', -⟩ := hlaunched haltingRun s h rfl hl
    obtain ⟨-, rfl, -⟩ := Outcome.exit.inj (hrun.symm.trans he)
    obtain ⟨-, hout, -⟩ := Outcome.exit.inj (hrun'.symm.trans he')
    exact ⟨s, h, hl, (String.append_left_inj _).1 hout.symm⟩
  · have hsame := hnot fun a s h ha hl' => hl ⟨s, h, by cases ha; exact hl'⟩
    rw [hrun, hrun'] at hsame
    exact absurd (Outcome.exit.inj hsame).2.1 (by decide +kernel)

end Command

end SpriteVM
