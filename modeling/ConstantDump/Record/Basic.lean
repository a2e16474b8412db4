import ConstantDump.Name.Components
import ConstantDump.Name.Template
import ConstantDump.Record.Fields
import ConstantDump.Value.Display

/-!
Records: types with fields, whose values are built from one value a field.
-/

namespace ConstantDump

structure Record where
  name : Text
  layout : Layout
  deriving DecidableEq, Repr

inductive RecordError
  | arity (typeName : Text) (expected got : Nat)
  deriving DecidableEq, Repr

def RecordError.message : RecordError → Text
  | .arity typeName expected got =>
    typeName ++ " takes ".toList ++ Text.ofNat expected ++ " fields, got ".toList ++
      Text.ofNat got

namespace Record

/-- The type name of a record's values: the last component without template arguments,
and with an underscore in front if that is a reserved word. -/
def typeNameOf (name : Text) : Text :=
  let plain := Name.withoutTemplate (Name.splitLast name).2
  if Name.isReserved plain then '_' :: plain else plain

def ofFields (name : Text) (fields : List Text) : Record :=
  ⟨name, ⟨typeNameOf name, safeNames fields⟩⟩

def ofFieldList (name raw : Text) : Record := ofFields name (splitFields raw)

def fields (r : Record) : List Text := r.layout.fields

def construct (r : Record) (arguments : List Value) : Except RecordError Value :=
  if arguments.length = r.layout.fields.length then .ok (.struct r.layout arguments)
  else .error (.arity r.layout.typeName r.layout.fields.length arguments.length)

def display (r : Record) : Text :=
  "record ".toList ++ r.name ++ '{' :: Text.join Value.comma r.fields ++ ['}']

end Record

end ConstantDump
