import SpriteVM.Host
import SpriteVM.Setup

namespace SpriteVM.Command

inductive Level
  | debug | info | warning
  deriving DecidableEq, Repr

namespace Level

def rank : Level → Nat
  | debug => 0
  | info => 1
  | warning => 2

def text : Level → String
  | debug => "DEBUG"
  | info => "INFO"
  | warning => "WARNING"

/-- Asked once, the log tells of the course of a run, and asked again, of each instruction. -/
def least : Nat → Level
  | 0 => warning
  | 1 => info
  | _ => debug

end Level

inductive Origin
  | cycle | control | display | loader | host | command
  deriving DecidableEq, Repr

def Origin.text : Origin → String
  | cycle => "chip_core_tracer.core.cpu"
  | control => "chip_core_tracer.arch.qch.instructions.control"
  | display => "chip_core_tracer.arch.qch.cpu"
  | loader => "chip_core_tracer.loader.loader"
  | host => "chip_core_tracer.host.runner"
  | command => "chip_core_tracer.cli"

structure LogRecord where
  level : Level
  origin : Origin
  message : String
  deriving DecidableEq, Repr

namespace LogRecord

def line (r : LogRecord) : String := r.level.text ++ " " ++ r.origin.text ++ ": " ++ r.message

def sizeText (s : Screen) : String := toString s.width ++ "x" ++ toString s.height

def ofLoading (loaded : Loaded) (s : Screen) : List LogRecord := [
  ⟨.debug, .display, "Display resized to " ++ sizeText s⟩,
  ⟨.info, .loader, "Loaded " ++ toString loaded.bytes ++ " bytes at 0x200 (display " ++ sizeText s
    ++ ", header " ++ (if loaded.header.isSome then "found" else "absent") ++ ")"⟩]

def ofStart (path : String) (seed : Option Int) (cyclesPerFrame : Int) : LogRecord :=
  ⟨.info, .command, "Running " ++ path ++ " (seed=" ++ (seed.map toString).getD "None" ++ ", "
    ++ toString cyclesPerFrame ++ " cycles per frame)"⟩

/-- The records of an executed instruction: a stop is told of before the instruction itself. -/
def ofInstruction (d : Instruction) : List LogRecord :=
  let place := Numeral.address 5 d.address
  let stop : List LogRecord := match d.kind with
    | .halt => [⟨.info, .control, "Machine halted at " ++ place⟩]
    | .unknown =>
      [⟨.warning, .control, "Unknown instruction " ++ d.wordText ++ " at " ++ place⟩]
    | _ => []
  stop ++ [⟨.debug, .cycle, d.traceText⟩]

def ofJournal (journal : List Snapshot) : List LogRecord :=
  journal.flatMap fun s => s.executed.toList.flatMap ofInstruction

/-- The record of the end of a run that came by itself. -/
def ofEnd (last : Option Frame) (h : Hosted) : List LogRecord :=
  match last with
  | none => []
  | some f =>
    let s := h.machine.state
    if f.terminal then
      [⟨.info, .host, "Machine " ++ (if f.halted then "halted" else "quit") ++ " after "
        ++ toString h.host.frames ++ " frames (" ++ toString h.machine.cycles ++ " cycles)"⟩]
    else if Host.ends f s then
      [⟨.warning, .host, "Waiting for a key at " ++ Numeral.address 5 s.pc
        ++ " with no key held; stopping after " ++ toString h.host.frames ++ " frames"⟩]
    else []

end LogRecord

/-- The lines of the records that are of the least level asked for. -/
def logLines (verbosity : Nat) (records : List LogRecord) : List String :=
  (records.filter fun r => (Level.least verbosity).rank ≤ r.level.rank).map LogRecord.line

end SpriteVM.Command
