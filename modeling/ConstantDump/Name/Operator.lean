import ConstantDump.Text.Blank

/-!
Telling the `<` and `>` of operator names from those of template arguments. A scan over
a name keeps what it has read in reverse, so the last character read comes first.
-/

namespace ConstantDump.Name

/-- The keyword before an operator sign, as a scan holds it. -/
def operatorReversed : Text := "rotarepo".toList

/-- The characters that signs such as `<=>`, `->` and `>>=` are made of. -/
def isSign (c : Char) : Bool := c = '<' || c = '>' || c = '=' || c = '-'

/-- The characters that would make `operator` the end of a longer word. -/
def isWordPart (c : Char) : Bool := c.isAlphanum || c = '_' || 0x80 ≤ c.toNat

/-- Whether a `<` or `>` after what was read belongs to the sign of an operator name:
before the sign, and any blanks, stands the keyword. -/
def followsOperator (before : Text) : Bool :=
  match operatorReversed.isPrefixOf? ((before.dropWhile isSign).dropWhile Text.isAsciiBlank) with
  | none => false
  | some [] => true
  | some (c :: _) => !isWordPart c

end ConstantDump.Name
