import ConstantDump.Name.Components
import ConstantDump.Scope.Basic

/-!
All enumerations of a scope, those inside scopes and records included.
-/

namespace ConstantDump.Entry

mutual

/-- The enumerations in an entry with the given name. -/
def enumerations (name : Text) : Entry → List (Text × Enumeration)
  | .value _ => []
  | .enumeration e => [(name, e)]
  | .record _ m => memberEnumerations (name ++ Name.separator) m
  | .scope m => memberEnumerations (name ++ Name.separator) m

/-- The enumerations in a scope; `before` stands before all of its names. -/
def memberEnumerations (before : Text) : OrderedMap Entry → List (Text × Enumeration)
  | ⟨entries⟩ => enumerationsIn before entries

def enumerationsIn (before : Text) : List (Text × Entry) → List (Text × Enumeration)
  | [] => []
  | (name, entry) :: rest => enumerations (before ++ name) entry ++ enumerationsIn before rest

end

end ConstantDump.Entry

namespace ConstantDump.Scope

/-- The enumerations of a scope under their full names: depth first, and in the order of
the names. -/
def enumerations (s : Scope) : List (Text × Enumeration) := Entry.memberEnumerations [] s

end ConstantDump.Scope
