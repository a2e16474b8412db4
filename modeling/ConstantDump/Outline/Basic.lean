import ConstantDump.Scope.Basic

/-!
What both views of a scope have in common: the entries that they leave out, and how they write
enumerators and field lists.
-/

namespace ConstantDump

/-- Empty scopes are not shown. -/
def Entry.isHidden : Entry → Bool
  | .scope members => members.isEmpty
  | _ => false

namespace Outline

def itemText (name : Text) (value : Int) : Text := name ++ " = ".toList ++ Text.ofInt value

def fieldList (r : Record) : Text := Text.join Value.comma r.fields

end Outline

end ConstantDump
