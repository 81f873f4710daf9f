import SpriteVM.Decimal.FloatText
import SpriteVM.Text.Integer
import SpriteVM.Text.Quoted

namespace SpriteVM

inductive Value
  | null
  | bool (b : Bool)
  | int (n : Int)
  | float (x : Float)
  | text (s : String)
  | list (items : List Value)
  | map (entries : List (Value × Value))
  deriving Inhabited

namespace Value

/-- The values that count as nothing: null, false, zero, and what is empty. -/
def isEmpty : Value → Bool
  | null => true
  | bool b => !b
  | int n => n = 0
  | float x => x == 0.0
  | text s => s.isEmpty
  | list items => items.isEmpty
  | map entries => entries.isEmpty

/-- Whether a double is this whole number. -/
def floatIs (x : Float) (n : Int) : Bool :=
  match Decimal.Parts.ofFloat x with
  | .finite negative b =>
    let (num, den) := b.scaled 1
    num = n.natAbs * den && (n = 0 || negative == decide (n < 0))
  | _ => false

/-- A truth value or a number as a whole number, where it is one. -/
def whole? : Value → Option Int
  | bool b => some (if b then 1 else 0)
  | int n => some n
  | _ => none

/-- Whether two values are the same key. Numbers compare by value, truth values as one and zero. -/
def sameKey (a b : Value) : Bool :=
  match a, b with
  | null, null => true
  | text s, text t => s = t
  | float x, float y => x == y
  | float x, b => b.whole?.any (floatIs x)
  | a, float y => a.whole?.any (floatIs y)
  | a, b => match a.whole?, b.whole? with
    | some m, some n => m = n
    | _, _ => false

/-- Puts a value under a key: in the place of the one that is there, or at the end. -/
def insert (key value : Value) : List (Value × Value) → List (Value × Value)
  | [] => [(key, value)]
  | (k, v) :: rest => if k.sameKey key then (k, value) :: rest else (k, v) :: insert key value rest

def field? (name : String) : List (Value × Value) → Option Value
  | [] => none
  | (text s, v) :: rest => if s = name then some v else field? name rest
  | _ :: rest => field? name rest

mutual

def writable : Value → Bool
  | int n => IntegerText.writable n
  | list items => writableAll items
  | map entries => writableEntries entries
  | _ => true

def writableAll : List Value → Bool
  | [] => true
  | v :: rest => v.writable && writableAll rest

def writableEntries : List (Value × Value) → Bool
  | [] => true
  | (k, v) :: rest => k.writable && v.writable && writableEntries rest

end

mutual

/-- A value as it stands in a report, its texts quoted. -/
def display : Value → String
  | null => "None"
  | bool b => if b then "True" else "False"
  | int n => toString n
  | float x => Decimal.floatText x
  | text s => Quoted.render s
  | list items => "[" ++ ", ".intercalate (displayAll items) ++ "]"
  | map entries => "\x7b" ++ ", ".intercalate (displayEntries entries) ++ "\x7d"

def displayAll : List Value → List String
  | [] => []
  | v :: rest => v.display :: displayAll rest

def displayEntries : List (Value × Value) → List String
  | [] => []
  | (k, v) :: rest => (k.display ++ ": " ++ v.display) :: displayEntries rest

end

/-- A value as it stands in a report, a text on its own as it is. -/
def plain : Value → String
  | text s => s
  | v => v.display

end Value

end SpriteVM
