import SpriteVM.Files
import SpriteVM.Text.Integer

namespace SpriteVM.Command

inductive OptionName
  | config | seed | maxFrames | cyclesPerFrame | key | trace | showDisplay | verbose | help
  deriving DecidableEq, Repr

namespace OptionName

def takesValue : OptionName → Bool
  | config | seed | maxFrames | cyclesPerFrame | key => true
  | trace | showDisplay | verbose | help => false

def long? (name : String) : Option OptionName :=
  [("--config", config), ("--seed", seed), ("--max-frames", maxFrames),
    ("--cycles-per-frame", cyclesPerFrame), ("--key", key), ("--trace", trace),
    ("--show-display", showDisplay), ("--verbose", verbose), ("--help", help)].lookup name

def short? (letter : Char) : Option OptionName :=
  [('c', config), ('k', key), ('v', verbose)].lookup letter

end OptionName

inductive ArgumentFault
  | usage
  | needsValue (option : String)
  | takesNoValue (option : String)
  deriving DecidableEq, Repr

/-- Arguments taken apart: the options with their values, and the rest, both in order. -/
structure Split where
  options : List (OptionName × String)
  others : List String
  deriving DecidableEq, Repr

namespace Split

def addOption (o : OptionName) (value : String) (s : Split) : Split :=
  { s with options := s.options ++ [(o, value)] }

def addOther (arg : String) (s : Split) : Split := { s with others := s.others ++ [arg] }

/-- The letters of joined short options, up to one that takes a value: the letters behind it are
the value, if there are any. The answer names an option that still waits for its value. -/
def letters : List Char → Split → Except ArgumentFault (Option (OptionName × String) × Split)
  | [], s => .ok (none, s)
  | c :: rest, s =>
    match OptionName.short? c with
    | none => .error .usage
    | some o =>
      if !o.takesValue then letters rest (s.addOption o "")
      else if rest.isEmpty then .ok (some (o, String.ofList ['-', c]), s)
      else .ok (none, s.addOption o (String.ofList rest))

/-- A long option, with its value where one stands behind an equals sign. -/
def long (arg : String) (s : Split) :
    Except ArgumentFault (Option (OptionName × String) × Split) :=
  let name := String.ofList (arg.toList.takeWhile (· ≠ '='))
  let value := (arg.toList.dropWhile (· ≠ '=')).drop 1
  let given := arg.toList.contains '='
  match OptionName.long? name with
  | none => .error .usage
  | some o =>
    if given then
      if o.takesValue then .ok (none, s.addOption o (String.ofList value))
      else .error (.takesNoValue name)
    else if o.takesValue then .ok (some (o, name), s)
    else .ok (none, s.addOption o "")

def option (arg : String) (s : Split) :
    Except ArgumentFault (Option (OptionName × String) × Split) :=
  match arg.toList with
  | '-' :: '-' :: _ => long arg s
  | _ => letters (arg.toList.drop 1) s

def isOption (arg : String) : Bool :=
  match arg.toList with
  | '-' :: _ :: _ => true
  | _ => false

/-- Takes arguments apart; `waiting` is an option whose value comes next. -/
def all : Option (OptionName × String) → List String → Split → Except ArgumentFault Split
  | some (_, name), [], _ => .error (.needsValue name)
  | none, [], s => .ok s
  | some (o, _), arg :: rest, s => all none rest (s.addOption o arg)
  | none, arg :: rest, s =>
    if arg = "--" then .ok { s with others := s.others ++ rest }
    else if isOption arg then do
      let (waiting, s) ← option arg s
      all waiting rest s
    else all none rest (s.addOther arg)

end Split

structure Arguments where
  program : Option String
  config : Option String
  seed : Option Int
  maxFrames : Option Int
  cyclesPerFrame : Option Int
  keys : List Int
  trace : Bool
  showDisplay : Bool
  verbosity : Nat
  deriving DecidableEq, Repr

inductive Request
  | run (arguments : Arguments)
  | help
  deriving DecidableEq, Repr

/-- What tells from the arguments what is asked for. -/
abbrev ArgumentParser := Files → List String → Except ArgumentFault Request

namespace Arguments

def file (fs : Files) (path : String) : Except ArgumentFault String :=
  if fs.has path then .ok (Files.tidy path) else .error .usage

def number (admits : Int → Bool) (text : String) : Except ArgumentFault Int :=
  match IntegerText.decimal? text with
  | some n => if admits n then .ok n else .error .usage
  | none => .error .usage

/-- The value of an option; of several the last counts. -/
def last {α : Type} (s : Split) (o : OptionName) (read : String → Except ArgumentFault α) :
    Except ArgumentFault (Option α) :=
  match (s.options.filter (·.1 = o)).getLast? with
  | none => .ok none
  | some (_, text) => (read text).map some

def count (s : Split) (o : OptionName) : Nat := s.options.countP (·.1 = o)

def isPositive (n : Int) : Bool := 1 ≤ n

def isKey (n : Int) : Bool := 0 ≤ n && n ≤ 15

/-- The program, which alone does not belong to an option. -/
def programOf (fs : Files) (s : Split) : Except ArgumentFault (Option String) :=
  match s.others with
  | [] => .ok none
  | [path] => (file fs path).map some
  | _ => .error .usage

/-- The arguments from their parts. -/
def ofSplit (fs : Files) (s : Split) : Except ArgumentFault Arguments := do
  let program ← programOf fs s
  let config ← last s .config (file fs)
  let seed ← last s .seed (number fun _ => true)
  let maxFrames ← last s .maxFrames (number isPositive)
  let cycles ← last s .cyclesPerFrame (number isPositive)
  let keys ← (s.options.filter (·.1 = .key)).mapM fun o => number isKey o.2
  return ⟨program, config, seed, maxFrames, cycles, keys, 0 < count s .trace,
    0 < count s .showDisplay, count s .verbose⟩

end Arguments

namespace Request

def ofSplit (fs : Files) (s : Split) : Except ArgumentFault Request :=
  if 0 < Arguments.count s .help then .ok help else (Arguments.ofSplit fs s).map run

/-- The arguments behind the word `run`. Before it only a request for help can stand. -/
def parse (fs : Files) : List String → Except ArgumentFault Request
  | [] => .error .usage
  | arg :: rest =>
    if arg = "--" then
      match rest with
      | "run" :: rest => do ofSplit fs (← Split.all none rest ⟨[], []⟩)
      | _ => .error .usage
    else if arg = "run" then do ofSplit fs (← Split.all none rest ⟨[], []⟩)
    else if arg = "--help" then .ok help
    else if arg.startsWith "--help=" then .error (.takesNoValue "--help")
    else .error .usage

end Request

end SpriteVM.Command
