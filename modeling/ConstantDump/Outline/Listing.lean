import ConstantDump.Outline.Basic
import ConstantDump.Outline.Fragment

/-!
The listing: every entry on a line of its own, and what is inside it between braces and
further to the right. Empty scopes are left out.
-/

namespace ConstantDump.Outline

def defaultWidth : Nat := 4

def listingLine (width level : Nat) (contents : Text) : List Fragment :=
  [.indent (level * width), .text contents, .newline]

def openBrace : Text := [' ', '{']

def closingBrace : Text := ['}']

def listingItems (width level : Nat) (items : List (Text × Int)) : List Fragment :=
  items.flatMap fun item => listingLine width level (itemText item.1 item.2)

mutual

def listingEntry (width level : Nat) (name : Text) : Entry → List Fragment
  | .value v => listingLine width level (name ++ " = ".toList ++ v.display)
  | .enumeration e =>
    listingLine width level ("enum ".toList ++ name ++ openBrace) ++
      listingItems width (level + 1) e.items.entries ++ listingLine width level closingBrace
  | .record r members =>
    let heading := "record ".toList ++ name ++ '(' :: fieldList r ++ [')']
    if members.isEmpty then listingLine width level heading
    else
      listingLine width level (heading ++ openBrace) ++
        listingMembers width (level + 1) members ++ listingLine width level closingBrace
  | .scope members =>
    listingLine width level (name ++ openBrace) ++
      listingMembers width (level + 1) members ++ listingLine width level closingBrace

def listingMembers (width level : Nat) : OrderedMap Entry → List Fragment
  | ⟨entries⟩ => listingEntries width level entries

def listingEntries (width level : Nat) : List (Text × Entry) → List Fragment
  | [] => []
  | (name, entry) :: rest =>
    (if entry.isHidden then [] else listingEntry width level name entry) ++
      listingEntries width level rest

end

/-- The listing of a scope, with so many columns for each level. -/
def listing (width : Nat) (s : Scope) : List Fragment := listingMembers width 0 s

end ConstantDump.Outline
