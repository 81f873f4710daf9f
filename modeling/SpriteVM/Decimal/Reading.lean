namespace SpriteVM.Decimal

/-- The double nearest to `digits * 10 ^ exponent`. Far outside the range of doubles the answer is
known without the power. -/
def toFloat (digits : Nat) (exponent : Int) : Float :=
  if digits = 0 then 0.0
  else if 400 < exponent then 1.0 / 0.0
  else if exponent + (toString digits).length < -400 then 0.0
  else Float.ofScientific digits (exponent < 0) exponent.natAbs

end SpriteVM.Decimal
