import ConstantDump.Text.Digits

/-!
UTF-16. A sequence of code units is read into characters and unpaired surrogates; the
strict reading refuses the latter, the lenient one shows a replacement character.
-/

namespace ConstantDump.Utf16

def isLead (unit : UInt16) : Bool := 0xD800 ≤ unit && unit ≤ 0xDBFF

def isTrail (unit : UInt16) : Bool := 0xDC00 ≤ unit && unit ≤ 0xDFFF

def pair (lead trail : UInt16) : Option Char :=
  Text.scalar? (0x10000 + (lead.toNat - 0xD800) * 0x400 + (trail.toNat - 0xDC00))

/-- The characters of the units; an unpaired half gives `none`. -/
def read : List UInt16 → List (Option Char)
  | [] => []
  | [unit] => [Text.scalar? unit.toNat]
  | unit :: next :: rest =>
    if isLead unit && isTrail next then pair unit next :: read rest
    else Text.scalar? unit.toNat :: read (next :: rest)

/-- The text of the units, when every half has its partner. -/
def decode (units : List UInt16) : Option Text := (read units).mapM id

def replacement : Char := '\uFFFD'

/-- The text of the units with a replacement character for each unpaired half. -/
def decodeLenient (units : List UInt16) : Text := (read units).map (·.getD replacement)

end ConstantDump.Utf16
