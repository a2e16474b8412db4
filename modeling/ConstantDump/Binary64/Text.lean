import ConstantDump.Binary64.Shortest
import ConstantDump.Text.Basic

/-!
Doubles as text: the shortest digits, with or without an exponent by the place of the
decimal point.
-/

namespace ConstantDump.Binary64

structure Style where
  /-- The least place of the point that is written without exponent. -/
  leastPoint : Int
  /-- The greatest place of the point that is written without exponent. -/
  greatestPoint : Int
  infinity : Text
  notANumber : Text

/-- The digits of a decimal number without the zeros at their end. -/
def Decimal.significant (d : Decimal) : Text :=
  ((Nat.toDigits 10 d.digits).reverse.dropWhile (· = '0')).reverse

/-- A decimal number without exponent, with at least one digit on both sides of the
point. -/
def Decimal.positional (d : Decimal) : Text :=
  let digits := d.significant
  let whole := digits.take d.point.toNat
  let fraction := List.replicate (-d.point).toNat '0' ++ digits.drop d.point.toNat
  (if whole = [] then ['0']
    else whole ++ List.replicate (d.point.toNat - whole.length) '0') ++
    '.' :: if fraction = [] then ['0'] else fraction

/-- A decimal number with one digit before the point, if there is need for a point, and
an exponent. -/
def Decimal.exponential (d : Decimal) : Text :=
  let digits := d.significant
  digits.take 1 ++ (if digits.length ≤ 1 then [] else '.' :: digits.drop 1) ++
    'e' :: Text.ofInt (d.point - 1)

def toText (style : Style) (x : Binary64) : Text :=
  if x.isNaN then style.notANumber
  else
    (if x.isNegative then ['-'] else []) ++
      if x.isInfinite then style.infinity
      else if x.isZero then ['0', '.', '0']
      else
        let d := x.shortest
        if style.leastPoint ≤ d.point ∧ d.point ≤ style.greatestPoint then d.positional
        else d.exponential

end ConstantDump.Binary64
