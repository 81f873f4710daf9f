import SpriteVM.Config.Settings
import SpriteVM.Decimal.Reading

namespace SpriteVM.Yaml

def nullWords : List String := ["", "~", "null", "Null", "NULL"]

def trueWords : List String :=
  ["yes", "Yes", "YES", "true", "True", "TRUE", "on", "On", "ON"]

def falseWords : List String :=
  ["no", "No", "NO", "false", "False", "FALSE", "off", "Off", "OFF"]

def infinityWords : List String := [".inf", ".Inf", ".INF"]

def nanWords : List String := [".nan", ".NaN", ".NAN"]

def isDigit (c : Char) : Bool := '0' ≤ c && c ≤ '9'

/-- Digits below a base, or underscores. -/
def isDigitOr_ (base : Nat) (c : Char) : Bool := c = '_' || (IntegerText.digitIn? base c).isSome

def withoutUnderscores (cs : List Char) : List Char := cs.filter (· ≠ '_')

/-- A run of at least one digit or underscore. -/
def isRun (base : Nat) (cs : List Char) : Bool := !cs.isEmpty && cs.all (isDigitOr_ base)

def runValue (base : Nat) (cs : List Char) : Nat :=
  IntegerText.valueOf base ((withoutUnderscores cs).filterMap (IntegerText.digitIn? base))

/-- A run in base 2 or 16 needs a digit among the underscores. -/
def markedValue (base : Nat) (cs : List Char) : Except ConfigFault Int :=
  if (withoutUnderscores cs).isEmpty then .error (.noDigits base) else .ok (runValue base cs)

/-- A decimal run can be read up to a number of digits. -/
def decimalValue (cs : List Char) : Except ConfigFault Int :=
  let n := (withoutUnderscores cs).length
  if IntegerText.maxDigits < n then .error (.digitCount n) else .ok (runValue 10 cs)

def groups (cs : List Char) : List (List Char) :=
  cs.foldr (fun c gs => match gs with
    | g :: rest => if c = ':' then [] :: g :: rest else (c :: g) :: rest
    | [] => [[c]]) [[]]

/-- A group after the first: one digit, or two of them below sixty. -/
def isSixtieth : List Char → Bool
  | [c] => isDigit c
  | [c, d] => '0' ≤ c && c ≤ '5' && isDigit d
  | _ => false

/-- The number of groups in base sixty. -/
def sixtieths (gs : List Nat) : Nat := gs.foldl (fun n g => n * 60 + g) 0

def unsignedInteger? (cs : List Char) : Option (Except ConfigFault Int) :=
  match cs with
  | ['0'] => some (.ok 0)
  | '0' :: 'b' :: rest => if isRun 2 rest then some (markedValue 2 rest) else none
  | '0' :: 'x' :: rest => if isRun 16 rest then some (markedValue 16 rest) else none
  | '0' :: rest => if isRun 8 rest then some (.ok (runValue 8 rest)) else none
  | c :: _ =>
    if !isDigit c then none
    else match groups cs with
      | [whole] => if isRun 10 whole then some (decimalValue whole) else none
      | whole :: rest =>
        if isRun 10 whole && rest.all isSixtieth then
          some ((decimalValue whole).map fun n =>
            sixtieths (n.toNat :: rest.map (runValue 10)))
        else none
      | [] => none
  | [] => none

def integer? (cs : List Char) : Option (Except ConfigFault Int) :=
  let (negative, rest) := IntegerText.signed cs
  (unsignedInteger? rest).map fun r => r.map fun n => if negative then -n else n

/-- An exponent, which has a sign. -/
def exponent? : List Char → Option Int
  | [] => some 0
  | e :: s :: ds =>
    if (e = 'e' || e = 'E') && (s = '-' || s = '+') && !ds.isEmpty && ds.all isDigit then
      some (if s = '-' then -(runValue 10 ds : Int) else runValue 10 ds)
    else none
  | _ => none

/-- Digits, a point, digits and perhaps an exponent. Without digits before the point there is one
behind it. -/
def pointFloat? (cs : List Char) : Option Float := do
  let whole := cs.takeWhile (isDigitOr_ 10)
  let fraction ← match cs.drop whole.length with
    | '.' :: rest => some rest
    | _ => none
  let places := fraction.takeWhile (isDigitOr_ 10)
  let e ← exponent? (fraction.drop places.length)
  let first ← (whole ++ places).head?
  if !isDigit first then none
  return Decimal.toFloat (runValue 10 (whole ++ places)) (e - (withoutUnderscores places).length)

def sixtiethFloat? (cs : List Char) : Option Float := do
  let before := cs.takeWhile (· ≠ '.')
  let places ← match cs.drop before.length with
    | '.' :: rest => if rest.all (isDigitOr_ 10) then some rest else none
    | _ => none
  let (whole, rest) ← match groups before with
    | whole :: rest => some (whole, rest)
    | [] => none
  if rest.isEmpty || !isRun 10 whole || !whole.head?.any isDigit || !rest.all isSixtieth then none
  let parts := whole :: rest
  let last := (parts.getLast?.getD []) ++ places
  let lowest := Decimal.toFloat (runValue 10 last) (-((withoutUnderscores places).length : Int))
  let higher := parts.dropLast.reverse.map fun g => Decimal.toFloat (runValue 10 g) 0
  return ((lowest :: higher).foldl (fun (sum, unit) x => (sum + x * unit, unit * 60.0))
    ((0.0, 1.0) : Float × Float)).1

/-- A floating-point number. A point without digits before it has no sign. -/
def float? (text : String) : Option Float :=
  let cs := text.toList
  let (negative, rest) := IntegerText.signed cs
  let signed (x : Float) : Float := if negative then -x else x
  if nanWords.contains text then some (0.0 / 0.0)
  else if infinityWords.contains (String.ofList rest) then some (signed (1.0 / 0.0))
  else if rest.head? = some '.' && rest.length ≠ cs.length then none
  else ((pointFloat? rest).or (sixtiethFloat? rest)).map signed

def plainValue (text : String) : Except ConfigFault Value :=
  if nullWords.contains text then .ok .null
  else if trueWords.contains text then .ok (.bool true)
  else if falseWords.contains text then .ok (.bool false)
  else match integer? text.toList with
    | some r => r.map .int
    | none => match float? text with
      | some x => .ok (.float x)
      | none => .ok (.text text)

end SpriteVM.Yaml
