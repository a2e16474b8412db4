import ConstantDump.Binary64.Basic

/-!
The double nearest to a decimal number; of two that are equally near, the one with
the even significand.
-/

namespace ConstantDump.Binary64

/-- The whole number nearest to a quotient, the even one of two. -/
def divideToEven (num den : Nat) : Nat :=
  let quotient := num / den
  let rest := 2 * (num % den)
  if den < rest ∨ (den = rest ∧ quotient % 2 = 1) then quotient + 1 else quotient

/-- The magnitude nearest to `num / den`. The unit is the least power of two, from
`2 ^ -1074` on, in which the quotient stays below `2 ^ 53`. A significand that rounds up
to `2 ^ 53` carries into the exponent field by itself. -/
def nearestMagnitude (num den : Nat) : Nat :=
  let guess : Int := max (-1074) ((num.log2 : Int) - den.log2 - 53)
  let tooSmall :=
    num * Nat.pow 2 (-guess).toNat ≥ den * Nat.pow 2 guess.toNat * Nat.pow 2 53
  let unit := if tooSmall then guess + 1 else guess
  let rounded := divideToEven (num * Nat.pow 2 (-unit).toNat) (den * Nat.pow 2 unit.toNat)
  min infinite ((unit + 1074).toNat * Nat.pow 2 52 + rounded)

/-- The double nearest to `digits * 10 ^ exponent`. From `10 ^ 310` on it is infinite and
up to `10 ^ -330` it is zero, so no greater power of ten is computed. -/
def ofDecimal (negative : Bool) (digits : Nat) (exponent : Int) : Binary64 :=
  let point := ((Nat.toDigits 10 digits).length : Int) + exponent
  ofMagnitude negative <|
    if digits = 0 ∨ point < -330 then 0
    else if 310 < point then infinite
    else nearestMagnitude (digits * Nat.pow 10 exponent.toNat) (Nat.pow 10 (-exponent).toNat)

end ConstantDump.Binary64
