import ConstantDump.Outline.Basic
import ConstantDump.Outline.Fragment

/-!
The tree view: a heading, then a row for every entry, with lines from each entry to those
inside it. Empty scopes are left out.
-/

namespace ConstantDump.Outline

def treeHeading : Text := "(global scope)".toList

/-- Stands before an entry's row; the last entry inside another has a mark of its own. -/
def treeMark (isLast : Bool) : Text := if isLast then "`--- ".toList else "+--- ".toList

/-- Stands before the rows of what is inside an entry. -/
def treeGuide (isLast : Bool) : Text := if isLast then "     ".toList else "|    ".toList

def treeItems (guide : Text) : List (Text × Int) → List Fragment
  | [] => []
  | item :: rest =>
    [.text guide, .text (treeMark rest.isEmpty), .text (itemText item.1 item.2), .newline] ++
      treeItems guide rest

mutual

def treeEntry (guide : Text) (isLast : Bool) (name : Text) : Entry → List Fragment
  | .value v =>
    [.text guide, .text (treeMark isLast), .text name,
      .text " = ".toList, .text v.display, .newline]
  | .enumeration e =>
    [.text guide, .text (treeMark isLast), .text name, .text " (enum)".toList, .newline] ++
      treeItems (guide ++ treeGuide isLast) e.items.entries
  | .record r members =>
    [.text guide, .text (treeMark isLast), .text name,
      .text " (record ".toList, .text (fieldList r), .text ")".toList, .newline] ++
      treeMembers (guide ++ treeGuide isLast) members
  | .scope members =>
    [.text guide, .text (treeMark isLast), .text name, .newline] ++
      treeMembers (guide ++ treeGuide isLast) members

def treeMembers (guide : Text) : OrderedMap Entry → List Fragment
  | ⟨entries⟩ => treeEntries guide entries

/-- The rows of entries. The last one that is shown has a mark of its own. -/
def treeEntries (guide : Text) : List (Text × Entry) → List Fragment
  | [] => []
  | (name, entry) :: rest =>
    (if entry.isHidden then []
      else treeEntry guide (rest.all fun later => later.2.isHidden) name entry) ++
      treeEntries guide rest

end

def tree (s : Scope) : List Fragment := [.text treeHeading, .newline] ++ treeMembers [] s

end ConstantDump.Outline
