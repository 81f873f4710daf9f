namespace SpriteVM.Decimal

/-- The whole number nearest to a quotient; of two as near, the even one. -/
def nearest (num den : Nat) : Nat :=
  let q := num / den
  let r := num % den
  if 2 * r < den then q
  else if den < 2 * r then q + 1
  else q + q % 2

/-- The nearest whole number is at most half a unit away. -/
theorem nearest_within_half (num : Nat) {den : Nat} (hd : 0 < den) :
    2 * (nearest num den * den) ≤ 2 * num + den ∧ 2 * num ≤ 2 * (nearest num den * den) + den := by
  have h := Nat.div_add_mod num den
  rw [Nat.mul_comm] at h
  have hr := Nat.mod_lt num hd
  simp only [nearest]
  split
  · omega
  · split
    · rw [Nat.add_mul]
      omega
    · have hm : num / den % 2 = 0 ∨ num / den % 2 = 1 := Nat.mod_two_eq_zero_or_one _
      rcases hm with hm | hm <;> rw [hm] <;> simp only [Nat.add_zero, Nat.add_mul] <;> omega

/-- Halfway between two whole numbers the even one is the nearest. -/
theorem nearest_even_of_half {num den : Nat} (h : 2 * (num % den) = den) :
    nearest num den % 2 = 0 := by
  have hl : ¬ 2 * (num % den) < den := by omega
  have hg : ¬ den < 2 * (num % den) := by omega
  simp only [nearest, hl, hg, if_false]
  omega

structure Binary where
  mantissa : Nat
  exponent : Int
  deriving DecidableEq, Repr

namespace Binary

/-- The numerator and the denominator of `factor` times the number. -/
def scaled (b : Binary) (factor : Nat) : Nat × Nat :=
  (b.mantissa * factor * Nat.pow 2 b.exponent.toNat, Nat.pow 2 (-b.exponent).toNat)

/-- The quotient of two numbers rounded to 53 binary digits. -/
def ofQuotient (num den : Nat) : Binary :=
  if num = 0 then ⟨0, 0⟩
  else
    let shift : Int := (num.log2 : Int) - den.log2 - 53
    let above (shift : Int) : Nat × Nat := (num * Nat.pow 2 (-shift).toNat, den * Nat.pow 2 shift.toNat)
    let (n, d) := above shift
    if n < Nat.pow 2 53 * d then ⟨nearest n d, shift⟩
    else
      let (n, d) := above (shift + 1)
      ⟨nearest n d, shift + 1⟩

end Binary

/-- A number of hundredths with two places after the point. -/
def hundredthsText (n : Nat) : String :=
  let places := n % 100
  toString (n / 100) ++ "." ++ (if places < 10 then "0" else "") ++ toString places

/-- A quotient as a binary floating-point number, shown with two places. -/
def quotientText (num den : Nat) : String :=
  let (n, d) := (Binary.ofQuotient num den).scaled 100
  hundredthsText (nearest n d)

end SpriteVM.Decimal
