import ConstantDump.Binary64.Rounding
import ConstantDump.Text.Digits

/-!
Integer and floating-point literals.
-/

namespace ConstantDump.Literal

/-- The text without a minus sign in front, and whether there was one. -/
def dropMinus : Text → Bool × Text
  | '-' :: rest => (true, rest)
  | t => (false, t)

def decimalValue (digits : Text) : Nat := Nat.ofDigitChars 10 digits 0

def signed (negative : Bool) (n : Nat) : Int := if negative then -n else n

/-- The integers that an integer literal can stand for. -/
def inRange (n : Int) : Bool := -Int.pow 2 127 ≤ n && n < Int.pow 2 127

/-- An integer literal: digits, maybe after a minus sign. One out of range is none. -/
def integer? (raw : Text) : Option Int :=
  let (negative, digits) := dropMinus raw
  if Text.isDecimal digits then
    let n := signed negative (decimalValue digits)
    if inRange n then some n else none
  else none

/-- The digits at the start and what follows them; there has to be one. -/
def digits? (t : Text) : Option (Text × Text) :=
  let digits := t.takeWhile Char.isDigit
  if digits = [] then none else some (digits, t.dropWhile Char.isDigit)

/-- An exponent: digits, maybe after a sign. -/
def exponent? : Text → Option Int
  | '+' :: digits => if Text.isDecimal digits then some (decimalValue digits) else none
  | t =>
    let (negative, digits) := dropMinus t
    if Text.isDecimal digits then some (signed negative (decimalValue digits)) else none

/-- A floating-point literal: digits, a point, digits and an exponent, maybe after a
minus sign. -/
def float? (raw : Text) : Option Binary64 := do
  let (negative, unsigned) := dropMinus raw
  let (whole, rest) ← digits? unsigned
  let rest ← ['.'].isPrefixOf? rest
  let (fraction, rest) ← digits? rest
  let rest ← ['e'].isPrefixOf? rest
  let exponent ← exponent? rest
  return Binary64.ofDecimal negative (decimalValue (whole ++ fraction))
    (exponent - fraction.length)

end ConstantDump.Literal
