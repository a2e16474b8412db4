import ConstantDump.Text.Digits
import ConstantDump.Text.GraphemeExtend
import ConstantDump.Text.Unprintable

/-!
Text between quotes: what has no visible form of its own is written as an escape.
-/

namespace ConstantDump.Text

def codePointEscape (c : Char) : Text :=
  ['\\', 'u', '{'] ++ Nat.toDigits 16 c.toNat ++ ['}']

def quoteChar (quote c : Char) : Text :=
  if c = '\x00' then ['\\', '0']
  else if c = '\t' then ['\\', 't']
  else if c = '\r' then ['\\', 'r']
  else if c = '\n' then ['\\', 'n']
  else if c = '\\' ∨ c = quote then ['\\', c]
  else if isCombining c || isUnprintable c then codePointEscape c
  else [c]

def quotedBy (quote : Char) (t : Text) : Text :=
  quote :: t.flatMap (quoteChar quote) ++ [quote]

def quoted (t : Text) : Text := quotedBy '"' t

end ConstantDump.Text
