import ConstantDump.Encoding.Utf8
import ConstantDump.Encoding.Utf16

/-!
The three character encodings, by the width of their code units. Units lie in bytes
with the least significant byte first.
-/

namespace ConstantDump

/-- A way to write characters as code units of one width. -/
inductive Encoding
  | utf8
  | utf16
  | utf32
  deriving DecidableEq, Repr

namespace Encoding

/-- Bytes of one code unit. -/
def unitWidth : Encoding → Nat
  | .utf8 => 1
  | .utf16 => 2
  | .utf32 => 4

/-- The last `width` bytes of a number, the least significant first. -/
def toBytes : (width : Nat) → Nat → List UInt8
  | 0, _ => []
  | width + 1, n => UInt8.ofNat n :: toBytes width (n / 256)

/-- The number that the bytes hold, the least significant first. -/
def ofBytes : List UInt8 → Nat
  | [] => 0
  | byte :: rest => byte.toNat + 256 * ofBytes rest

/-- Two bytes a unit; an odd byte at the end is left out. -/
def units16 : List UInt8 → List UInt16
  | a :: b :: rest => UInt16.ofNat (ofBytes [a, b]) :: units16 rest
  | _ => []

/-- Four bytes a unit; fewer bytes at the end are left out. -/
def units32 : List UInt8 → List Nat
  | a :: b :: c :: d :: rest => ofBytes [a, b, c, d] :: units32 rest
  | _ => []

/-- The text in the bytes, when they are whole units that spell characters only. -/
def decode : Encoding → List UInt8 → Option Text
  | .utf8, bytes => Utf8.decode bytes
  | .utf16, bytes => if bytes.length % 2 = 0 then Utf16.decode (units16 bytes) else none
  | .utf32, bytes =>
    if bytes.length % 4 = 0 then (units32 bytes).mapM Text.scalar? else none

/-- The bytes of one code unit, when the number fits into one. -/
def unitBytes? (encoding : Encoding) (unit : Int) : Option (List UInt8) :=
  if 0 ≤ unit ∧ unit < Int.pow 256 encoding.unitWidth then
    some (toBytes encoding.unitWidth unit.toNat)
  else none

/-- UTF-16 text with a replacement character for each unpaired half, and for an odd
byte at the end. -/
def decodeWide (bytes : List UInt8) : Text :=
  Utf16.decodeLenient (units16 bytes) ++
    if bytes.length % 2 = 0 then [] else [Utf16.replacement]

end Encoding

end ConstantDump
