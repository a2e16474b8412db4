import ConstantDump.Outline.Tree
import ConstantDump.Proofs.Outline.Place

/-!
The tree view row by row.

* `around_cons`, `treeRow_cons`: the row of an item inside another, seen from there;
* `tree_eq_rows`: after the heading there is one row for each item, and it is determined by the
  item and by what is shown after it and after those around it.
-/

namespace ConstantDump.Outline

/-- What the row of an item says about it, piece by piece. -/
def Item.pieces : Item → List Text
  | .entry name (.value v) => [name, " = ".toList, v.display]
  | .entry name (.enumeration _) => [name, " (enum)".toList]
  | .entry name (.record r _) => [name, " (record ".toList, fieldList r, ")".toList]
  | .entry name (.scope _) => [name]
  | .enumerator name value => [itemText name value]

def Item.label (item : Item) : Text := item.pieces.flatten

/-! ## What is shown later -/

def Place.next : Place → Place
  | [] => []
  | [index] => [index + 1]
  | index :: second :: rest => index :: Place.next (second :: rest)

/-- Whether something is shown beside a place, after it. -/
def hasLater (items : List Item) (place : Place) : Bool := (itemAt? items (Place.next place)).isSome

/-- Whether something is shown after the items around a place, the outermost one first. -/
def around (items : List Item) (place : Place) : List Bool :=
  (List.range (place.length - 1)).map fun depth => hasLater items (place.take (depth + 1))

theorem Place.next_cons (index : Nat) {place : Place} (h : place ≠ []) :
    Place.next (index :: place) = index :: Place.next place := by
  cases place with
  | nil => exact absurd rfl h
  | cons second rest => rfl

theorem Place.next_ne_nil {place : Place} (h : place ≠ []) : Place.next place ≠ [] := by
  match place with
  | [index] => exact List.cons_ne_nil _ _
  | index :: second :: rest => exact List.cons_ne_nil _ _

theorem hasLater_last (before : List Item) (item : Item) (rest : List Item) :
    hasLater (before ++ item :: rest) [before.length] = !rest.isEmpty := by
  cases rest <;> simp [hasLater, Place.next, itemAt?]

theorem hasLater_cons {items : List Item} {index : Nat} {item : Item}
    (here : items[index]? = some item) {place : Place} (h : place ≠ []) :
    hasLater items (index :: place) = hasLater item.inside place := by
  rw [hasLater, Place.next_cons index h, itemAt?_cons items index (Place.next_ne_nil h), here]
  rfl

theorem length_around (items : List Item) (place : Place) :
    (around items place).length = place.length - 1 := by simp [around]

theorem around_singleton (items : List Item) (index : Nat) : around items [index] = [] := rfl

theorem around_cons {items : List Item} {index : Nat} {item : Item}
    (here : items[index]? = some item) {place : Place} (h : place ≠ []) :
    around items (index :: place) = hasLater items [index] :: around item.inside place := by
  cases place with
  | nil => exact absurd rfl h
  | cons second rest =>
    have deeper (depth : Nat) : hasLater items ((index :: second :: rest).take (depth + 1 + 1)) =
        hasLater item.inside ((second :: rest).take (depth + 1)) :=
      hasLater_cons here (List.cons_ne_nil _ _)
    simp only [around, List.length_cons, Nat.add_sub_cancel, List.range_succ_eq_map,
      List.map_cons, List.map_map, Function.comp_def, Nat.succ_eq_add_one, deeper]
    rfl

/-! ## Rows -/

def rowAfter (guide : Text) (isLast : Bool) (item : Item) : List Fragment :=
  [.text guide, .text (treeMark isLast)] ++ item.pieces.map .text ++ [.newline]

/-- The row of the item at a place, in a tree that begins behind a guide. -/
def treeRow (guide : Text) (items : List Item) (row : Place × Item) : List Fragment :=
  rowAfter (guide ++ (around items row.1).flatMap fun later => treeGuide !later)
    (!hasLater items row.1) row.2

theorem treeRow_last (guide : Text) (before : List Item) (item : Item) (rest : List Item) :
    treeRow guide (before ++ item :: rest) ([before.length], item) =
      rowAfter guide rest.isEmpty item := by
  rw [treeRow, hasLater_last, around_singleton]
  simp

theorem treeRow_cons {guide : Text} {items : List Item} {index : Nat} {item inner : Item}
    (here : items[index]? = some item) {place : Place} (h : place ≠ []) :
    treeRow guide items (index :: place, inner) =
      treeRow (guide ++ treeGuide !hasLater items [index]) item.inside (place, inner) := by
  rw [treeRow, treeRow, hasLater_cons here h, around_cons here h]
  simp

/-- The rows of an item, of those inside it and of those after it. -/
theorem flatMap_treeRow_cons (guide : Text) (before : List Item) (item : Item) (rest : List Item) :
    (rowsFrom before.length (item :: rest)).flatMap (treeRow guide (before ++ item :: rest)) =
      rowAfter guide rest.isEmpty item ++
        (rowsFrom 0 item.inside).flatMap (treeRow (guide ++ treeGuide rest.isEmpty) item.inside) ++
        (rowsFrom (before ++ [item]).length rest).flatMap
          (treeRow guide (before ++ [item] ++ rest)) := by
  have here : (before ++ item :: rest)[before.length]? = some item := by simp
  have inside : (under before.length (rowsFrom 0 item.inside)).flatMap
      (treeRow guide (before ++ item :: rest)) =
        (rowsFrom 0 item.inside).flatMap
          (treeRow (guide ++ treeGuide rest.isEmpty) item.inside) := by
    rw [under, List.flatMap_map]
    refine List.flatMap_congr fun row mem => ?_
    rw [treeRow_cons here (ne_nil_of_mem_rowsFrom mem), hasLater_last, Bool.not_not]
  rw [rowsFrom_cons, List.flatMap_cons, List.flatMap_append, treeRow_last, inside]
  simp

theorem treeItems_eq (guide : Text) (before : List Item) (items : List (Text × Int)) :
    treeItems guide items =
      (rowsFrom before.length (enumerators items)).flatMap
        (treeRow guide (before ++ enumerators items)) := by
  induction items generalizing before with
  | nil =>
    rw [enumerators, List.map_nil, rowsFrom_nil]
    rfl
  | cons item rest ih =>
    have same : enumerators (item :: rest) = .enumerator item.1 item.2 :: enumerators rest := rfl
    have none : rowsFrom 0 (Item.enumerator item.1 item.2).inside = [] := rowsFrom_nil 0
    have last : (enumerators rest).isEmpty = rest.isEmpty := by cases rest <;> rfl
    rw [same, flatMap_treeRow_cons, ← ih, none, last, treeItems]
    simp [rowAfter, Item.pieces]

mutual

/-- An entry's row, and the rows of what is inside it. -/
theorem treeEntry_eq (guide : Text) (isLast : Bool) (name : Text) : (entry : Entry) →
    treeEntry guide isLast name entry =
      rowAfter guide isLast (.entry name entry) ++
        (rowsFrom 0 (Item.entry name entry).inside).flatMap
          (treeRow (guide ++ treeGuide isLast) (Item.entry name entry).inside)
  | .value v => by
    rw [Item.inside, rowsFrom_nil, treeEntry]
    rfl
  | .enumeration e => by
    rw [treeEntry, treeItems_eq _ []]
    rfl
  | .record r members => by
    rw [treeEntry, treeMembers_eq]
    rfl
  | .scope members => by
    rw [treeEntry, treeMembers_eq]
    rfl

theorem treeMembers_eq (guide : Text) : (members : OrderedMap Entry) →
    treeMembers guide members =
      (rowsFrom 0 (shown members)).flatMap (treeRow guide (shown members))
  | ⟨entries⟩ => by
    rw [treeMembers, treeEntries_eq guide []]
    rfl

theorem treeEntries_eq (guide : Text) (before : List Item) : (entries : List (Text × Entry)) →
    treeEntries guide entries =
      (rowsFrom before.length (itemsIn entries)).flatMap
        (treeRow guide (before ++ itemsIn entries))
  | [] => by
    rw [itemsIn, List.filter_nil, List.map_nil, rowsFrom_nil]
    rfl
  | (name, entry) :: rest => by
    rw [treeEntries, itemsIn_cons]
    cases entry.isHidden with
    | true => exact treeEntries_eq guide before rest
    | false =>
      rw [treeEntries_eq guide (before ++ [.entry name entry]) rest, treeEntry_eq,
        ← isEmpty_itemsIn]
      exact (flatMap_treeRow_cons guide before (.entry name entry) (itemsIn rest)).symm

end

theorem tree_eq_rows (s : Scope) :
    tree s = [.text treeHeading, .newline] ++ (rows s).flatMap (treeRow [] (shown s)) := by
  rw [tree, treeMembers_eq]
  rfl

end ConstantDump.Outline
