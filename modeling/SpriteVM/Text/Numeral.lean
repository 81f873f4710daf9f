namespace SpriteVM.Numeral

/-- `lead`, zeros up to `width` characters in all, then `digits`. -/
def zeroFilled (width : Nat) (lead digits : String) : String :=
  lead ++ String.ofList (List.replicate (width - (lead.length + digits.length)) '0') ++ digits

def sign (n : Int) : String := if n < 0 then "-" else ""

def lowerDigits (n : Nat) : String := String.ofList (Nat.toDigits 16 n)

def upperDigits (n : Nat) : String := String.ofList ((Nat.toDigits 16 n).map Char.toUpper)

/-- Upper-case digits without a mark: `0A`, `-1F`. -/
def hex (width : Nat) (n : Int) : String := zeroFilled width (sign n) (upperDigits n.natAbs)

/-- Lower-case digits after `0x`: at width five `0x00f`, `0x1000` and `-0x01`. -/
def address (width : Nat) (n : Int) : String :=
  zeroFilled width (sign n ++ "0x") (lowerDigits n.natAbs)

end SpriteVM.Numeral
