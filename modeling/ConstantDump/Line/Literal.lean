import ConstantDump.Line.Constant
import ConstantDump.Line.Enumeration

/-!
Lines `# literal name(literal) = value`.
-/

namespace ConstantDump.Line

def literalName : Text := "(literal)".toList

/-- What follows the words `# literal`, all in one line. -/
def literalDirective? (line : Text) : Option Text := do
  let rest ← ['#'].isPrefixOf? (Text.trimStart line)
  let rest ← "literal".toList.isPrefixOf? (Text.trimStart rest)
  let (_, rest) ← blanks? rest
  if '\n' ∈ rest then none else some rest

def literal? (line : Text) : Option (Text × Text) := do
  let (name, value) ← constant? (← literalDirective? line)
  if (literalName.isSuffixOf? name).isSome then some (name, value) else none

end ConstantDump.Line
