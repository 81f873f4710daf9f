import SpriteVM.Decimal.Shortest
import SpriteVM.Text.Numeral

namespace SpriteVM.Decimal

inductive Parts
  | nan
  | infinite (negative : Bool)
  | finite (negative : Bool) (size : Binary)
  deriving DecidableEq, Repr

/-- The sign bit, eleven bits of exponent and 52 bits of fraction. -/
def Parts.ofBits (bits : Nat) : Parts :=
  let negative : Bool := bits / Nat.pow 2 63 % 2 = 1
  let exponent : Nat := bits / Nat.pow 2 52 % Nat.pow 2 11
  let fraction : Nat := bits % Nat.pow 2 52
  if exponent = 2047 then if fraction = 0 then infinite negative else nan
  else if exponent = 0 then finite negative ⟨fraction, -1074⟩
  else finite negative ⟨Nat.pow 2 52 + fraction, (exponent : Int) - 1075⟩

def Parts.ofFloat (x : Float) : Parts := ofBits x.toBits.toNat

def zeros (n : Nat) : String := String.ofList (List.replicate n '0')

/-- `digits` with the point after the first `point` of them; zeros fill up. -/
def positional (digits : String) (point : Int) : String :=
  if point ≤ 0 then "0." ++ zeros (-point).toNat ++ digits
  else if digits.length ≤ point then digits ++ zeros (point.toNat - digits.length) ++ ".0"
  else (digits.take point.toNat).toString ++ "." ++ (digits.drop point.toNat).toString

/-- One digit, the others after the point, and the exponent of the first. -/
def exponential (digits : String) (exponent : Int) : String :=
  let rest := (digits.drop 1).toString
  (digits.take 1).toString ++ (if rest.isEmpty then "" else "." ++ rest) ++ "e"
    ++ (if exponent < 0 then "-" else "+")
    ++ Numeral.zeroFilled 2 "" (toString exponent.natAbs)

def sizeText (b : Binary) : String :=
  if b.mantissa = 0 then "0.0"
  else
    let s := shortest b
    let digits := toString s.digits
    let point := (digits.length : Int) + s.exponent
    if -4 < point ∧ point ≤ 16 then positional digits point else exponential digits (point - 1)

def Parts.text : Parts → String
  | nan => "nan"
  | infinite negative => (if negative then "-" else "") ++ "inf"
  | finite negative b => (if negative then "-" else "") ++ sizeText b

def floatText (x : Float) : String := (Parts.ofFloat x).text

end SpriteVM.Decimal
