import ConstantDump.Name.Components

/-!
Names without what does not address anything: a leading separator and the markers of
anonymous namespaces.
-/

namespace ConstantDump.Name

def anonymousNamespace : Text := "(anonymous namespace)".toList

def dropLeading (name : Text) : Text := (separator.isPrefixOf? name).getD name

/-- The name without a marker as its last component; the marker alone is no name. -/
def dropLastMarker (name : Text) : Text :=
  match (separator ++ anonymousNamespace).isSuffixOf? name with
  | some rest => rest
  | none => if name = anonymousNamespace then [] else name

/-- The name by which a scope stores and finds things: no separator in front, no marker
before a separator, no marker at the end. -/
def normalize (name : Text) : Text :=
  dropLastMarker (Text.erase (anonymousNamespace ++ separator) (dropLeading name))

/-- The components of the name by which a scope stores and finds things. -/
def path (name : Text) : List Text := components (normalize name)

end ConstantDump.Name
