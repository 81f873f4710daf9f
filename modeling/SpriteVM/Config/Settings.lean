import SpriteVM.Config.Value
import SpriteVM.Fault

namespace SpriteVM

/-- Why a configuration is refused. What is shown of a value is its text. -/
inductive ConfigFault
  | malformed (file : Option String)
  | root
  | sectionKind (name : String)
  | integer (shown : String)
  | notPositive (name shown : String)
  | keyList
  | keyRange (shown : String)
  | switch (name shown : String)
  | tooLong
  | digitCount (n : Nat)
  | noDigits (base : Nat)
  deriving DecidableEq, Repr

namespace ConfigFault

/-- A number that cannot be written or read is an error of its own kind. -/
def kind : ConfigFault → FaultClass
  | tooLong | digitCount _ | noDigits _ => .value
  | _ => .configuration

def message : ConfigFault → String
  | malformed none => "Malformed YAML"
  | malformed (some file) => "Malformed YAML in " ++ file
  | root => "Configuration root must be a mapping."
  | sectionKind name => "Section '" ++ name ++ "' must be a mapping."
  | integer shown => "Invalid integer format: " ++ shown
  | notPositive name shown => "'" ++ name ++ "' must be positive, got " ++ shown ++ "."
  | keyList => "'keys' must be a list."
  | keyRange shown => "Key index " ++ shown ++ " is out of range (0-15)."
  | switch name shown => "'" ++ name ++ "' must be true or false, got " ++ shown ++ "."
  | tooLong =>
    "Exceeds the limit (4300 digits) for integer string conversion; "
      ++ "use sys.set_int_max_str_digits() to increase the limit"
  | digitCount n =>
    "Exceeds the limit (4300 digits) for integer string conversion: value has " ++ toString n
      ++ " digits; use sys.set_int_max_str_digits() to increase the limit"
  | noDigits base => "invalid literal for int() with base " ++ toString base ++ ": ''"

end ConfigFault

/-- What a run is set up with. Without a seed the random bytes are anyone's guess, and without a
frame limit the run ends by itself or not at all. -/
structure Settings where
  seed : Option Int
  path : Option String
  cyclesPerFrame : Int
  frameRate : Int
  maxFrames : Option Int
  trace : Bool
  keys : List Int
  deriving DecidableEq, Repr

namespace Settings

def standard : Settings := ⟨none, none, 10, 60, none, false, []⟩

def shown (text : Value → String) (v : Value) : Except ConfigFault String :=
  if v.writable then .ok (text v) else .error .tooLong

/-- A section, which has to be a mapping; one that is left out or counts as nothing is empty. -/
def sectionOf (entries : List (Value × Value)) (name : String) :
    Except ConfigFault (List (Value × Value)) :=
  let v := (Value.field? name entries).getD .null
  if v.isEmpty then .ok []
  else match v with
    | .map inner => .ok inner
    | _ => .error (.sectionKind name)

def badInteger (v : Value) : Except ConfigFault Int := do throw (.integer (← shown Value.plain v))

def integer (v : Value) : Except ConfigFault Int :=
  match v with
  | .int n => .ok n
  | .text s => match IntegerText.read? s with
    | some n => .ok n
    | none => badInteger v
  | _ => badInteger v

/-- An integer, unless the entry is left out or null. -/
def optionalInteger (v : Option Value) : Except ConfigFault (Option Int) :=
  match v with
  | none | some .null => .ok none
  | some v => (integer v).map some

/-- A positive integer; null is not one. -/
def positive (name : String) (v : Option Value) (standard : Int) : Except ConfigFault Int := do
  let n ← integer (v.getD (.int standard))
  if 0 < n then return n
  throw (.notPositive name (← shown Value.plain (.int n)))

/-- A truth value; left out or null it is false. -/
def switch (name : String) (v : Option Value) : Except ConfigFault Bool :=
  match v with
  | none | some .null => .ok false
  | some (.bool b) => .ok b
  | some v => do throw (.switch name (← shown Value.display v))

/-- The number of a key, 0 to 15. -/
def keyNumber (v : Value) : Except ConfigFault Int := do
  let n ← integer v
  if 0 ≤ n ∧ n < 16 then return n
  throw (.keyRange (← shown Value.plain (.int n)))

/-- A list of keys; left out, or counting as nothing, it is empty. -/
def keyList (v : Option Value) : Except ConfigFault (List Int) :=
  let v := v.getD .null
  if v.isEmpty then .ok []
  else match v with
    | .list items => items.mapM keyNumber
    | _ => .error .keyList

/-- Any value names a path by its text. -/
def pathText (v : Option Value) : Except ConfigFault (Option String) :=
  match v with
  | none | some .null => .ok none
  | some v => (shown Value.plain v).map some

def ofEntries (entries : List (Value × Value)) : Except ConfigFault Settings := do
  let machine ← sectionOf entries "machine"
  let seed ← optionalInteger (Value.field? "seed" machine)
  let program ← sectionOf entries "program"
  let file ← pathText (Value.field? "path" program)
  let host ← sectionOf entries "host"
  let cycles ← positive "host.cycles_per_frame" (Value.field? "cycles_per_frame" host) 10
  let rate ← positive "host.frame_rate" (Value.field? "frame_rate" host) 60
  let frames ← optionalInteger (Value.field? "max_frames" host)
  let keys ← keyList (Value.field? "keys" entries)
  let trace ← switch "trace" (Value.field? "trace" entries)
  return ⟨seed, file, cycles, rate, frames, trace, keys⟩

/-- The settings that a configuration asks for; null asks for nothing. -/
def ofValue : Value → Except ConfigFault Settings
  | .null => .ok standard
  | .map entries => ofEntries entries
  | _ => .error .root

end Settings

end SpriteVM
