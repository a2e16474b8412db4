import ConstantDump.Text.Blank

/-!
Lines `name = value` and `name:=value`, maybe with a comma at the end. The `=` that
separates is the first one outside brackets that is no part of an operator name.
-/

namespace ConstantDump.Line

/-- Whether an `=` between these two characters separates. The one of `:=` always does;
any other does unless it is part of a sign, or stands before a parameter list. -/
def isSeparating (previous next : Option Char) : Bool :=
  previous == some ':' ||
    (!(next == some '=' || next == some '(' || next == some '>') &&
      !(previous == some '<' || previous == some '>' || previous == some '!' ||
        previous == some '='))

/-- The texts before and after the separating `=`; `before` has been read, its last
character first, and is inside `depth` brackets. -/
def separateFrom (before : Text) (depth : Nat) : Text → Option (Text × Text)
  | [] => none
  | c :: rest =>
    if c = '(' || c = '[' || c = '{' then separateFrom (c :: before) (depth + 1) rest
    else if c = ')' || c = ']' || c = '}' then separateFrom (c :: before) (depth - 1) rest
    else if c = '=' ∧ depth = 0 ∧ isSeparating before.head? rest.head? then
      some (before.reverse, rest)
    else separateFrom (c :: before) depth rest

/-- The name before the `=`, which may be the second half of `:=`. -/
def constantName (before : Text) : Text :=
  let name := Text.trimEnd before
  match [':'].isSuffixOf? name with
  | some shorter => if shorter.getLast? = some ':' then name else Text.trimEnd shorter
  | none => name

/-- The value after the `=`, without a comma at the end. -/
def constantValue (after : Text) : Text :=
  let value := Text.trim after
  match [','].isSuffixOf? value with
  | some shorter => Text.trimEnd shorter
  | none => value

/-- The name and the value of a constant's line. A line that starts with `#` is a
directive. -/
def constant? (line : Text) : Option (Text × Text) := do
  let line := Text.trim line
  if line.head? = some '#' then none else
  let (before, after) ← separateFrom [] 0 line
  let name := constantName before
  let value := constantValue after
  if name = [] ∨ value = [] then none else some (name, value)

end ConstantDump.Line
