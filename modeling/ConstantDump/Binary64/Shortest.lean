import ConstantDump.Binary64.Basic

/-!
The shortest decimal number that reads back as a double: the fewest digits that fall
between the midpoints to the neighbouring doubles, and of those digits the nearest.
-/

namespace ConstantDump.Binary64

/-- A decimal number without sign: `0.d₁d₂… * 10 ^ point`, where `d₁d₂…` are the digits
of `digits`. -/
structure Decimal where
  digits : Nat
  point : Int
  deriving DecidableEq, Repr

/-- Numbers that round to one double: a quarter of its unit is `2 ^ unit`, and from
`low` to `high` of these quarters all round to it, the ends themselves only if
`closed`. The double itself is at `middle`. -/
structure Interval where
  low : Nat
  middle : Nat
  high : Nat
  unit : Int
  closed : Bool

/-- The numbers that round to `x`. Below a power of two the neighbour is nearer. -/
def interval (x : Binary64) : Interval :=
  let m := x.significand
  { low := 4 * m - if m = Nat.pow 2 52 ∧ 1 < x.exponentField then 1 else 2
    middle := 4 * m
    high := 4 * m + 2
    unit := x.exponent - 2
    closed := m % 2 = 0 }

/-- Whether `n * 10 ^ power` rounds to the double. -/
def Interval.holds (i : Interval) (n : Nat) (power : Int) : Bool :=
  let scaled := n * Nat.pow 10 power.toNat * Nat.pow 2 (-i.unit).toNat
  let scale := Nat.pow 10 (-power).toNat * Nat.pow 2 i.unit.toNat
  if i.closed then i.low * scale ≤ scaled && scaled ≤ i.high * scale
  else i.low * scale < scaled && scaled < i.high * scale

/-- The place of the decimal point: the double is at least `10 ^ (point - 1)` and less
than `10 ^ point`. -/
def Interval.point (i : Interval) : Int :=
  let num := i.middle * Nat.pow 2 i.unit.toNat
  let den := Nat.pow 2 (-i.unit).toNat
  if den ≤ num then (Nat.toDigits 10 (num / den)).length
  else 1 - ((Nat.toDigits 10 ((den - 1) / num)).length : Int)

/-- The nearest number of `count` digits that rounds to the double, if there is one; the
greater one of two that are equally near. -/
def Interval.withDigits? (i : Interval) (count : Nat) : Option Decimal :=
  let power := i.point - count
  let num := i.middle * Nat.pow 2 i.unit.toNat * Nat.pow 10 (-power).toNat
  let den := Nat.pow 2 (-i.unit).toNat * Nat.pow 10 power.toNat
  let below := num / den
  let above := below + 1
  let upFirst := den ≤ 2 * (num % den)
  let choice :=
    if upFirst then [above, below].find? (i.holds · power)
    else [below, above].find? (i.holds · power)
  choice.map fun n => { digits := n, point := (Nat.toDigits 10 n).length + power }

/-- The shortest decimal number that rounds to a finite double other than zero;
seventeen digits always do. -/
def shortest (x : Binary64) : Decimal :=
  ((List.range 18).findSome? x.interval.withDigits?).getD ⟨0, 0⟩

end ConstantDump.Binary64
