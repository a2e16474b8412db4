import ConstantDump.Name.Identifier
import ConstantDump.OrderedMap
import ConstantDump.Text.Quoted

/-!
Enumerations: enumerators with their integers, in the order of their declaration.
-/

namespace ConstantDump

structure Enumeration where
  name : Text
  items : OrderedMap Int
  deriving DecidableEq, Repr

inductive EnumerationError
  | invalidName (name : Text)
  /-- Neither a name nor an integer of an enumeration, as it is written. -/
  | notFound (enumeration key : Text)
  deriving DecidableEq, Repr

def EnumerationError.message : EnumerationError → Text
  | .invalidName name => "invalid enumerator name ".toList ++ Text.quoted name
  | .notFound enumeration key =>
    "no enumerator ".toList ++ key ++ " in enum ".toList ++ enumeration

namespace Enumeration

def named (name : Text) : Enumeration := ⟨name, .empty⟩

/-- Adds an enumerator, or changes its integer if it is there. -/
def insert (e : Enumeration) (name : Text) (value : Int) :
    Except EnumerationError Enumeration :=
  if Name.isIdentifier name then .ok { e with items := e.items.insert name value }
  else .error (.invalidName name)

def valueOf? (e : Enumeration) (name : Text) : Option Int := e.items.get? name

/-- The first enumerator with the integer. -/
def nameOf? (e : Enumeration) (value : Int) : Option Text :=
  (e.items.entries.find? fun item => item.2 = value).map (·.1)

def value (e : Enumeration) (name : Text) : Except EnumerationError Int :=
  match e.valueOf? name with
  | some value => .ok value
  | none => .error (.notFound e.name name)

def nameFor (e : Enumeration) (value : Int) : Except EnumerationError Text :=
  match e.nameOf? value with
  | some name => .ok name
  | none => .error (.notFound e.name (Text.ofInt value))

def containsName (e : Enumeration) (name : Text) : Bool := (e.valueOf? name).isSome

def containsValue (e : Enumeration) (value : Int) : Bool := (e.nameOf? value).isSome

def display (e : Enumeration) : Text := "enum ".toList ++ e.name

end Enumeration

end ConstantDump
