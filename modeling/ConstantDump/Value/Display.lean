import ConstantDump.Binary64.Text
import ConstantDump.Text.Quoted
import ConstantDump.Value.Basic

/-!
Values as text.
-/

namespace ConstantDump.Value

/-- Doubles from `0.0001` on and below `10 ^ 16` are written without exponent. -/
def floatStyle : Binary64.Style where
  leastPoint := -3
  greatestPoint := 16
  infinity := "inf".toList
  notANumber := "NaN".toList

def hexByte (byte : UInt8) : Text :=
  [Nat.digitChar (byte.toNat / 16), Nat.digitChar (byte.toNat % 16)]

/-- A byte between quotes: itself if it is a visible ASCII character, else an escape. -/
def displayByte (byte : UInt8) : Text :=
  let c := Char.ofNat byte.toNat
  if c = '\t' then ['\\', 't']
  else if c = '\r' then ['\\', 'r']
  else if c = '\n' then ['\\', 'n']
  else if c = '\'' ∨ c = '"' ∨ c = '\\' then ['\\', c]
  else if 0x20 ≤ byte ∧ byte ≤ 0x7E then [c]
  else ['\\', 'x'] ++ hexByte byte

def displayBytes (bytes : List UInt8) : Text :=
  ['b', '"'] ++ bytes.flatMap displayByte ++ ['"']

def comma : Text := [',', ' ']

mutual

def display : Value → Text
  | .int n => Text.ofInt n
  | .float x => x.toText floatStyle
  | .bool b => if b then "true".toList else "false".toList
  | .char c => Text.quotedBy '\'' [c]
  | .str t => Text.quoted t
  | .bytes units => displayBytes units
  | .list items => '[' :: Text.join comma (displayAll items) ++ [']']
  | .tuple items =>
    '(' :: Text.join comma (displayAll items) ++ (if items.length = 1 then [','] else []) ++ [')']
  | .struct layout values =>
    layout.typeName ++ '(' :: Text.join comma (displayFields layout.fields values) ++ [')']
  | .text t => t

def displayAll : List Value → List Text
  | [] => []
  | value :: rest => value.display :: displayAll rest

def displayFields : List Text → List Value → List Text
  | field :: fields, value :: rest =>
    (field ++ '=' :: value.display) :: displayFields fields rest
  | _, _ => []

end

theorem displayAll_eq_map (values : List Value) : displayAll values = values.map display := by
  induction values with
  | nil => rfl
  | cons value rest ih => simp [displayAll, ih]

end ConstantDump.Value
