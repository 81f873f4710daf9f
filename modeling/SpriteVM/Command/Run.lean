import SpriteVM.Command.Arguments
import SpriteVM.Command.Log
import SpriteVM.Config.File
import SpriteVM.Decimal.Rounding

namespace SpriteVM.Command

inductive Outcome
  /-- It wrote `out` and `err` and exits with a status. -/
  | exit (status : Nat) (out err : String)
  /-- It explains its usage, because the arguments are refused. -/
  | usage
  /-- It explains itself on request. -/
  | help
  /-- It breaks off on a file that is not UTF-8. -/
  | badEncoding
  /-- It breaks off on an error that it does not report. -/
  | crash (kind : FaultClass)
  /-- It is still running. -/
  | unfinished
  deriving DecidableEq, Repr

namespace Outcome

/-- The exit status, if the command ends. It is 1 where the command breaks off. -/
def status? : Outcome → Option Nat
  | exit status _ _ => some status
  | usage => some 2
  | help => some 0
  | badEncoding | crash _ => some 1
  | unfinished => none

/-- The command breaks off on an error that nothing in it handles. -/
def escapes : Outcome → Bool
  | badEncoding | crash _ => true
  | _ => false

end Outcome

def unlines (lines : List String) : String := String.join (lines.map (· ++ "\n"))

def refusal (message : String) : Outcome := .exit 2 "" (unlines ["Error: " ++ message])

/-- The settings with what the arguments say instead. -/
def override (a : Arguments) (s : Settings) : Settings :=
  { s with
    seed := a.seed.or s.seed
    cyclesPerFrame := a.cyclesPerFrame.getD s.cyclesPerFrame
    maxFrames := a.maxFrames.or s.maxFrames
    keys := if a.keys.isEmpty then s.keys
      else (List.range 16).map Int.ofNat |>.filter fun k => a.keys.contains k || s.keys.contains k
    trace := s.trace || a.trace }

def picture (s : Screen) : List String :=
  s.rows.map fun row => String.ofList (row.map fun lit => if lit then '#' else '.')

def echo : Hook := ⟨"echo", []⟩

/-- What a machine says at its end, and the exit status. -/
def summary (h : Hosted) (frameRate : Int) : Nat × List String × List String :=
  let s := h.machine.state
  let place := Numeral.address 5 s.pc
  let cycles := toString h.machine.cycles ++ " cycles"
  let frames := toString h.host.frames ++ " frames"
  if s.quit then
    (1, [], ["Quit: unknown instruction at " ++ place ++ " after " ++ cycles ++ "."])
  else if s.halted then (0, ["Halted at " ++ place ++ " after " ++ cycles ++ "."], [])
  else if s.blocking then
    (0, ["Blocked waiting for a key at " ++ place ++ " after " ++ frames ++ " (" ++ cycles ++ ")."],
      [])
  else
    (0, ["Stopped after " ++ frames ++ " (" ++ cycles ++ ", "
      ++ Decimal.quotientText h.host.frames frameRate.toNat ++ "s of machine time)."], [])

def echoed (h : Hosted) : List String := h.machine.trace.calls.toList.map (·.snapshot.traceText)

def faulted (f : Fault) (out err : List String) : Outcome :=
  if f.kind.isA .engine then
    let lead := if f.kind.isA .machine then "Machine fault: " else "Error: "
    .exit 3 (unlines out) (unlines (err ++ [lead ++ f.message]))
  else .crash f.kind

/-- The machine, with its instructions echoed if the settings ask for it. -/
def echoing (s : Settings) (m : Machine) : Machine :=
  if s.trace then { m with trace := m.trace.add echo } else m

/-- The end for a run that came to this; `before` is the log up to its start. -/
def report (a : Arguments) (s : Settings) (before : List LogRecord) :
    EStateM.Result Fault Hosted (Option (Option Frame)) → Outcome :=
  let log (h : Hosted) (after : List LogRecord) : List String :=
    logLines a.verbosity (before ++ LogRecord.ofJournal h.machine.trace.journal.toList ++ after)
  fun
  | .error f h => faulted f (echoed h) (log h [])
  | .ok none _ => .unfinished
  | .ok (some last) h =>
    let (status, out, err) := summary h s.frameRate
    let shown := if a.showDisplay then picture h.machine.state.screen else []
    .exit status (unlines (echoed h ++ shown ++ out))
      (unlines (log h (LogRecord.ofEnd last h) ++ err))

def drive (a : Arguments) (s : Settings) (path : String) (setup : Setup) (patience : Nat) :
    Outcome :=
  let machine := echoing s setup.machine
  let before := (setup.loaded.toList.flatMap (LogRecord.ofLoading · machine.state.screen))
    ++ [LogRecord.ofStart path s.seed s.cyclesPerFrame]
  match Host.ofCycles s.cyclesPerFrame with
  | .error f => .crash f.kind
  | .ok host => report a s before (Host.run s.maxFrames patience ⟨machine, host⟩)

/-- The settings, of the standard kind where no file is named. -/
def settingsOf (read : Reader) (fs : Files) (config : Option String) :
    Except SettingsFault Settings :=
  match config with
  | none => .ok .standard
  | some path => Settings.ofFile read fs path

/-- The end for settings that are refused. A file that cannot be taken apart is named at the very
end of the report. -/
def settingsRefused : SettingsFault → Outcome
  | .encoding => .badEncoding
  | .file f => if f.kind.isA .system then refusal f.message else .crash f.kind
  | .config (.malformed file) => .exit 2 "" ("Error: " ++ (ConfigFault.malformed file).message)
  | .config f => if f.kind.isA .configuration then refusal f.message else .crash f.kind

def carryOut (read : Reader) (fs : Files) (entropy : Int) (patience : Nat) (a : Arguments) :
    Outcome :=
  match settingsOf read fs a.config with
  | .error f => settingsRefused f
  | .ok s =>
    let s := override a s
    match Setup.programPath a.program s with
    | none => refusal "no ROM given and no program.path configured."
    | some path =>
      match Setup.build s (some path) fs entropy with
      | .error f =>
        if f.kind.isA .programFormat || f.kind.isA .system then refusal f.message
        else .crash f.kind
      | .ok setup => drive a s path setup patience

def runBy (parse : ArgumentParser) (read : Reader) (fs : Files) (entropy : Int) (patience : Nat)
    (args : List String) : Outcome :=
  match parse fs args with
  | .error .usage => .usage
  | .error (.needsValue option) => refusal ("Option '" ++ option ++ "' requires an argument.")
  | .error (.takesNoValue option) => refusal ("Option '" ++ option ++ "' does not take a value.")
  | .ok .help => .help
  | .ok (.run a) => carryOut read fs entropy patience a

def run (fs : Files) (entropy : Int) (patience : Nat) (args : List String) : Outcome :=
  runBy Request.parse Yaml.read fs entropy patience args

/-- The paths that arguments may name: each as it stands, behind its equals sign, and behind a short
option. -/
def pathsIn (args : List String) : List String :=
  args.flatMap fun arg =>
    [arg, String.ofList ((arg.toList.dropWhile (· ≠ '=')).drop 1),
      String.ofList (arg.toList.drop 2)]

/-- The path that the settings named by the arguments configure. -/
def pathConfigured (fs : Files) (args : List String) : Option String :=
  match Request.parse fs args with
  | .ok (.run a) => (settingsOf Yaml.read fs a.config).toOption.bind (·.path)
  | _ => none

end SpriteVM.Command
