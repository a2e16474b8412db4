import ConstantDump.Text.Blank

/-!
Lines `name{field, ...}`, in which no `=` occurs.
-/

namespace ConstantDump.Line

/-- The texts before and after the first opening brace. -/
def splitAtBrace? : Text → Option (Text × Text)
  | [] => none
  | c :: rest =>
    if c = '{' then some ([], rest)
    else (splitAtBrace? rest).map fun (before, after) => (c :: before, after)

/-- The text before a closing brace at the end. -/
def beforeClosing? (t : Text) : Option Text := ['}'].isSuffixOf? (Text.trimEnd t)

/-- The name and the raw field list of a record's line. The name is up to the first brace
that does not start it. A brace right at the start follows an empty name, but only after
a blank. -/
def record? (line : Text) : Option (Text × Text) :=
  if '=' ∈ line then none else
  match beforeClosing? (Text.trimStart line) with
  | none | some [] => none
  | some (c :: rest) =>
    match splitAtBrace? rest with
    | some (name, fields) => some (Text.trimEnd (c :: name), fields)
    | none => if c = '{' ∧ line.head?.any Text.isBlank then some ([], rest) else none

end ConstantDump.Line
