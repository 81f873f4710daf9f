import SpriteVM.Text.Blank

namespace SpriteVM.IntegerText

/-- Decimal texts with more digits than this are not read or written. -/
def maxDigits : Nat := 4300

/-- A character outside ASCII as the blank or digit it stands for; any other is of no use. -/
def narrow (c : Char) : Char :=
  if c.toNat < 127 then c
  else if isWideBlank c then ' '
  else match wideDigit? c with
    | some d => Char.ofNat (48 + d)
    | none => '?'

def trim (cs : List Char) : List Char :=
  ((cs.dropWhile isAsciiBlank).reverse.dropWhile isAsciiBlank).reverse

/-- The value of a digit, whatever the base. -/
def digit? (c : Char) : Option Nat :=
  if '0' ≤ c && c ≤ '9' then some (c.toNat - 48)
  else if 'a' ≤ c && c ≤ 'z' then some (c.toNat - 87)
  else if 'A' ≤ c && c ≤ 'Z' then some (c.toNat - 55)
  else none

def digitIn? (base : Nat) (c : Char) : Option Nat := (digit? c).filter (· < base)

/-- Digits, the most significant first, with single underscores between them: `none` if there is
none, or an underscore is at an end or follows another. -/
def digits? (base : Nat) : List Char → Option (List Nat)
  | [] => none
  | [c] => (digitIn? base c).map ([·])
  | c :: '_' :: rest => do
    let d ← digitIn? base c
    return d :: (← digits? base rest)
  | c :: rest => do
    let d ← digitIn? base c
    return d :: (← digits? base rest)

def valueOf (base : Nat) (ds : List Nat) : Nat := ds.foldl (fun n d => n * base + d) 0

def signed : List Char → Bool × List Char
  | '-' :: rest => (true, rest)
  | '+' :: rest => (false, rest)
  | cs => (false, cs)

def decimal? (text : String) : Option Int := do
  let (negative, cs) := signed (trim (text.toList.map narrow))
  let ds ← digits? 10 cs
  if maxDigits < ds.length then none
  return if negative then -(valueOf 10 ds : Int) else valueOf 10 ds

def isHex (text : String) : Bool :=
  match text.toList with
  | '0' :: c :: _ => c = 'x' || c = 'X'
  | _ => false

def hex? (text : String) : Option Int := do
  let cs := (trim (text.toList.map narrow)).drop 2
  let ds ← digits? 16 (match cs with | '_' :: rest => rest | cs => cs)
  return valueOf 16 ds

def read? (text : String) : Option Int := if isHex text then hex? text else decimal? text

def writable (n : Int) : Bool := n.natAbs < Nat.pow 10 maxDigits

end SpriteVM.IntegerText
