import SpriteVM.Decimal.Rounding

namespace SpriteVM.Decimal

/-- The number `digits * 10 ^ exponent`. -/
structure Scientific where
  digits : Nat
  exponent : Int
  deriving DecidableEq, Repr

/-- The real numbers that round to a binary number, in quarters of its last place: from `low` to
`high`, both included if `closed`, times `2 ^ exponent`. -/
structure Interval where
  low : Nat
  value : Nat
  high : Nat
  exponent : Int
  closed : Bool
  deriving DecidableEq, Repr

/-- What rounds to a double. Below a power of two the neighbour is only half as far away. -/
def Interval.ofBinary (b : Binary) : Interval :=
  let below := if b.mantissa = Nat.pow 2 52 ∧ b.exponent > -1074 then 1 else 2
  ⟨4 * b.mantissa - below, 4 * b.mantissa, 4 * b.mantissa + 2, b.exponent - 2,
    b.mantissa % 2 = 0⟩

namespace Scientific

/-- A point of the grid of multiples of `10 ^ exponent`, and `n * 2 ^ binary`, over a common
denominator. -/
def common (s : Scientific) (n : Nat) (binary : Int) : Nat × Nat :=
  (s.digits * Nat.pow 10 s.exponent.toNat * Nat.pow 2 (-binary).toNat,
    n * Nat.pow 2 binary.toNat * Nat.pow 10 (-s.exponent).toNat)

def inside (s : Scientific) (i : Interval) : Bool :=
  let (p, low) := s.common i.low i.exponent
  let (_, high) := s.common i.high i.exponent
  if i.closed then low ≤ p && p ≤ high else low < p && p < high

def distance (s : Scientific) (i : Interval) : Nat :=
  let (p, v) := s.common i.value i.exponent
  (p - v) + (v - p)

/-- The value in the middle cut down to a multiple of `10 ^ exponent`. -/
def cut (i : Interval) (exponent : Int) : Scientific :=
  let (one, v) := Scientific.common ⟨1, exponent⟩ i.value i.exponent
  ⟨v / one, exponent⟩

/-- The neighbour on a grid that rounds to the same number: the nearer of two. -/
def onGrid? (i : Interval) (exponent : Int) : Option Scientific :=
  let low := cut i exponent
  let high := { low with digits := low.digits + 1 }
  match low.inside i, high.inside i with
  | true, true =>
    let dl := low.distance i
    let dh := high.distance i
    some (if dl < dh || (dl = dh && low.digits % 2 = 0) then low else high)
  | true, false => some low
  | false, true => some high
  | false, false => none

def search (i : Interval) : Nat → Int → Scientific
  | 0, exponent => cut i exponent
  | n + 1, exponent => (onGrid? i exponent).getD (search i n (exponent - 1))

/-- Trailing zeros move into the exponent. -/
def stripZeros : Nat → Scientific → Scientific
  | 0, s => s
  | n + 1, s =>
    if s.digits % 10 = 0 then stripZeros n ⟨s.digits / 10, s.exponent + 1⟩ else s

end Scientific

/-- The exponent of the leading decimal digit of the value in the middle of an interval; no double
is below `10 ^ -400`. -/
def leadingExponent (i : Interval) : Int :=
  ((toString (Scientific.cut i (-400)).digits).length : Int) - 401

def shortest (b : Binary) : Scientific :=
  let i := Interval.ofBinary b
  (Scientific.search i 17 (leadingExponent i)).stripZeros 20

end SpriteVM.Decimal
