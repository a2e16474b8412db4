import ConstantDump.Text.Basic

/-!
Digits of number bases up to sixteen and the numbers they denote.
-/

namespace ConstantDump.Text

/-- The value of a digit: `0` to `9`, then `a` to `f` in either case. -/
def digitValue? (c : Char) : Option Nat :=
  if '0' ≤ c ∧ c ≤ '9' then some (c.toNat - '0'.toNat)
  else if 'a' ≤ c ∧ c ≤ 'f' then some (c.toNat - 'a'.toNat + 10)
  else if 'A' ≤ c ∧ c ≤ 'F' then some (c.toNat - 'A'.toNat + 10)
  else none

def isDigitOf (base : Nat) (c : Char) : Bool :=
  (digitValue? c).any (· < base)

/-- The number that the digits denote, the most significant first. -/
def valueOf (base : Nat) (digits : Text) : Nat :=
  digits.foldl (fun n c => n * base + (digitValue? c).getD 0) 0

/-- The longest run of digits of the base at the start, of at most `width` of them. -/
def takeDigits (base width : Nat) (t : Text) : Text :=
  (t.take width).takeWhile (isDigitOf base)

def isDecimal (t : Text) : Bool := t ≠ [] && t.all Char.isDigit

/-- The character with the code point `n`, when there is one. -/
def scalar? (n : Nat) : Option Char :=
  if h : n.isValidChar then some (Char.ofNatAux n h) else none

theorem scalar?_toNat (c : Char) : scalar? c.toNat = some c := by
  have h : c.toNat.isValidChar := c.valid
  rw [scalar?, dif_pos h]
  exact congrArg some (Char.ext (UInt32.toNat_inj.1 rfl))

end ConstantDump.Text
