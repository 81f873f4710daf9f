import SpriteVM.Text.Printable
import SpriteVM.Text.Numeral

namespace SpriteVM.Quoted

def quoteFor (cs : List Char) : Char :=
  if cs.contains '\'' && !cs.contains '"' then '"' else '\''

/-- An escape by code point, as short as it goes: two, four or eight digits. -/
def escapeCode (n : Nat) : String :=
  if n < 0x100 then "\\x" ++ Numeral.zeroFilled 2 "" (Numeral.lowerDigits n)
  else if n < 0x10000 then "\\u" ++ Numeral.zeroFilled 4 "" (Numeral.lowerDigits n)
  else "\\U" ++ Numeral.zeroFilled 8 "" (Numeral.lowerDigits n)

def escape (quote c : Char) : String :=
  if c = quote || c = '\\' then String.ofList ['\\', c]
  else if c = '\t' then "\\t"
  else if c = '\n' then "\\n"
  else if c = '\r' then "\\r"
  else if c.toNat < 0x7f && 0x20 ≤ c.toNat then c.toString
  else if isPrintable c then c.toString
  else escapeCode c.toNat

def render (text : String) : String :=
  let quote := quoteFor text.toList
  quote.toString ++ String.join (text.toList.map (escape quote)) ++ quote.toString

end SpriteVM.Quoted
