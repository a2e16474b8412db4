import ConstantDump.Binary64.Basic
import ConstantDump.Text.Basic

/-!
Values of constants: numbers, characters, strings, and lists, tuples and structs of
values.
-/

namespace ConstantDump

structure Layout where
  typeName : Text
  fields : List Text
  deriving DecidableEq, Repr

inductive Value
  | int (n : Int)
  | float (x : Binary64)
  | bool (b : Bool)
  | char (c : Char)
  | str (t : Text)
  /-- Code units that spell no text. -/
  | bytes (bytes : List UInt8)
  | list (items : List Value)
  /-- Arguments of a type that is not known. -/
  | tuple (items : List Value)
  /-- The fields of a struct, in the order of its layout. -/
  | struct (layout : Layout) (values : List Value)
  /-- Text that is no literal. -/
  | text (t : Text)
  deriving Repr

def Layout.lastIndex? (field : Text) : List Text → Option Nat
  | [] => none
  | name :: rest =>
    match lastIndex? field rest with
    | some index => some (index + 1)
    | none => if name = field then some 0 else none

/-- The place of a field; a repeated one is found where it stands last. -/
def Layout.indexOf? (layout : Layout) (field : Text) : Option Nat :=
  lastIndex? field layout.fields

namespace Value

/-- Values without a type: one stands for itself, any other number of them is a
tuple. -/
def untyped : List Value → Value
  | [value] => value
  | values => .tuple values

/-- The integer that an integer, a character or a truth value stands for. -/
def integral? : Value → Option Int
  | .int n => some n
  | .char c => some c.toNat
  | .bool b => some (if b then 1 else 0)
  | _ => none

def contents? : Value → Option Text
  | .str t => some t
  | .text t => some t
  | _ => none

def kind : Value → Text
  | .int _ => "int".toList
  | .float _ => "float".toList
  | .bool _ => "bool".toList
  | .char _ => "char".toList
  | .str _ => "string".toList
  | .bytes _ => "bytes".toList
  | .list _ => "list".toList
  | .tuple _ => "tuple".toList
  | .struct _ _ => "struct".toList
  | .text _ => "text".toList

def field? : Value → Text → Option Value
  | .struct layout values, field => do values[← layout.indexOf? field]?
  | _, _ => none

end Value

end ConstantDump
