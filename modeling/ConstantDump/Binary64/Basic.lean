/-!
Double precision numbers as their 64 bits: one sign bit, eleven bits of exponent and
52 bits of fraction.
-/

namespace ConstantDump

structure Binary64 where
  bits : UInt64
  deriving DecidableEq, Repr

namespace Binary64

def isNegative (x : Binary64) : Bool := Nat.pow 2 63 ≤ x.bits.toNat

/-- The bits below the sign. -/
def magnitude (x : Binary64) : Nat := x.bits.toNat % Nat.pow 2 63

/-- The magnitude of infinity; every greater one is not a number. -/
def infinite : Nat := 2047 * Nat.pow 2 52

def isNaN (x : Binary64) : Bool := infinite < x.magnitude

def isInfinite (x : Binary64) : Bool := x.magnitude == infinite

def isZero (x : Binary64) : Bool := x.magnitude == 0

def ofMagnitude (negative : Bool) (magnitude : Nat) : Binary64 :=
  ⟨UInt64.ofNat ((if negative then Nat.pow 2 63 else 0) + magnitude)⟩

/-- The exponent field; the subnormal numbers have that of the least normal ones. -/
def exponentField (x : Binary64) : Nat := max 1 (x.magnitude / Nat.pow 2 52)

/-- The significand of a finite number, with the leading bit that is not stored. -/
def significand (x : Binary64) : Nat :=
  x.magnitude % Nat.pow 2 52 + if x.magnitude < Nat.pow 2 52 then 0 else Nat.pow 2 52

/-- A finite number is its significand times two to this power. -/
def exponent (x : Binary64) : Int := (x.exponentField : Int) - 1075

/-- Equality as numbers: the two zeros are equal, and what is not a number is equal to
nothing. -/
def equal (x y : Binary64) : Bool :=
  !x.isNaN && !y.isNaN && (x == y || (x.isZero && y.isZero))

end Binary64

end ConstantDump
