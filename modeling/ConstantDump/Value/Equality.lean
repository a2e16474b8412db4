import ConstantDump.Value.Basic

/-!
Equality of values, as values and as numbers. As numbers, the two float zeros are equal,
and a float that is not a number differs from itself. Main statement: with the equality
of bits for floats, the comparison decides whether two values are the same.
-/

namespace ConstantDump.Value

mutual

/-- Whether two values are equal up to a comparison of floats. -/
def equalBy (floats : Binary64 → Binary64 → Bool) : Value → Value → Bool
  | .int m, .int n => m == n
  | .float x, .float y => floats x y
  | .bool a, .bool b => a == b
  | .char c, .char d => c == d
  | .str s, .str t => s == t
  | .bytes a, .bytes b => a == b
  | .list xs, .list ys => equalAllBy floats xs ys
  | .tuple xs, .tuple ys => equalAllBy floats xs ys
  | .struct l xs, .struct k ys => l == k && equalAllBy floats xs ys
  | .text s, .text t => s == t
  | _, _ => false

def equalAllBy (floats : Binary64 → Binary64 → Bool) : List Value → List Value → Bool
  | [], [] => true
  | x :: xs, y :: ys => equalBy floats x y && equalAllBy floats xs ys
  | _, _ => false

end

/-- Whether two values are equal as numbers. -/
def equal (v w : Value) : Bool := equalBy Binary64.equal v w

mutual

theorem equalBy_beq_iff (v w : Value) : equalBy (· == ·) v w = true ↔ v = w := by
  cases v <;> cases w <;> simp [equalBy]
  case list.list xs ys => exact equalAllBy_beq_iff xs ys
  case tuple.tuple xs ys => exact equalAllBy_beq_iff xs ys
  case struct.struct l xs k ys => exact fun _ => equalAllBy_beq_iff xs ys

theorem equalAllBy_beq_iff (vs ws : List Value) :
    equalAllBy (· == ·) vs ws = true ↔ vs = ws := by
  cases vs with
  | nil => cases ws <;> simp [equalAllBy]
  | cons v vs =>
    cases ws with
    | nil => simp [equalAllBy]
    | cons w ws => simp [equalAllBy, equalBy_beq_iff v w, equalAllBy_beq_iff vs ws]

end

instance : DecidableEq Value := fun v w => decidable_of_iff _ (equalBy_beq_iff v w)

end ConstantDump.Value
