import ConstantDump.Text.Blank
import ConstantDump.Text.Folding
import ConstantDump.Text.Word

/-!
The lines around the enumerators of an enumeration: `enum name {` and `}`.
-/

namespace ConstantDump.Line

/-- The blanks at the start and what follows them; there has to be one. -/
def blanks? (t : Text) : Option (Text × Text) :=
  if (t.head?.any Text.isBlank) then
    some (t.takeWhile Text.isBlank, t.dropWhile Text.isBlank)
  else none

/-- The text before an opening brace at the end, which only blanks may follow. -/
def beforeBrace? (t : Text) : Option Text := ['{'].isSuffixOf? (Text.trimEnd t)

/-- The name of the enumeration that a line opens. It has no line feed in it. Where
nothing stands before the brace, a blank after the keyword counts as the name: the last
one that is no line feed, but not the blank that ends the keyword. -/
def enumOpening? (line : Text) : Option Text := do
  let rest ← "enum".toList.isPrefixOf? (Text.trimStart line)
  let (blanks, rest) ← blanks? rest
  let name := Text.trimEnd (← beforeBrace? rest)
  if name = [] then (blanks.tail.reverse.find? (· ≠ '\n')).map ([·])
  else if '\n' ∈ name then none
  else some name

def closesEnum (line : Text) : Bool := (Text.trimStart line).head? = some '}'

/-- Whether a name is a placeholder for one that is missing: `(anonymous ...)` or
`(unnamed ...)`, in any case and in one line. -/
def isAnonymous (name : Text) : Bool :=
  match ['('].isPrefixOf? name with
  | none => false
  | some rest =>
    let rest := Text.trimStart rest
    match Text.dropWord? "anonymous".toList rest <|> Text.dropWord? "unnamed".toList rest with
    | none => false
    | some rest =>
      !rest.head?.any Text.isWord && rest.getLast? = some ')' && '\n' ∉ rest

end ConstantDump.Line
