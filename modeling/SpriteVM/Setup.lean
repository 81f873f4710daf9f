import SpriteVM.Config.Settings
import SpriteVM.Files
import SpriteVM.Program

namespace SpriteVM

/-- What was loaded: the size of the image, and the header it had. -/
structure Loaded where
  bytes : Nat
  header : Option Header
  deriving DecidableEq, Repr

/-- A machine that is set up, and what was loaded into it, if anything was. -/
structure Setup where
  machine : Machine
  loaded : Option Loaded

namespace Setup

/-- One memory for all addresses that instructions are fetched from. -/
def memoryBus : Except Fault Bus := Bus.ofRanges [(0, State.memorySize - 1)]

/-- The path to load from: the one given, or else the one of the settings. An empty one is none. -/
def programPath (given : Option String) (settings : Settings) : Option String :=
  ((given.filter (!·.isEmpty)).or settings.path).filter (!·.isEmpty)

def loadProgram (fs : Files) (path : Option String) : Action (Option Loaded) := do
  match path with
  | none => return none
  | some path =>
    match fs.read path with
    | .error f => throw f
    | .ok image =>
      let header ← Program.load image
      return some ⟨image.length, header⟩

def holdKeys : List Int → Action Unit
  | [] => pure ()
  | key :: rest => do
    Machine.setKey key true
    holdKeys rest

/-- What is done to a new machine: the trace is turned on if it is asked for, the program is loaded,
and then the keys are held. -/
def prepare (settings : Settings) (fs : Files) (path : Option String) : Action (Option Loaded) := do
  Machine.onTrace (modify fun t => { t with enabled := t.enabled || settings.trace })
  let loaded ← loadProgram fs path
  holdKeys settings.keys
  return loaded

/-- Builds the machine. Without a configured seed the random bytes come from `entropy`. -/
def build (settings : Settings) (given : Option String) (fs : Files) (entropy : Int) :
    Except Fault Setup := do
  let bus ← memoryBus
  let machine ← Machine.create bus (settings.seed.getD entropy)
  match prepare settings fs (programPath given settings) machine with
  | .ok loaded machine => return ⟨machine, loaded⟩
  | .error f _ => throw f

end Setup

end SpriteVM
