import ConstantDump.Outline.Basic
import Mathlib.Data.List.Basic

/-!
What the views of a scope show, apart from how they show it: items, with other items inside them.

* `Item.inside`, `itemAt?`: the items inside an item, and the item at a place;
* `items_induction`: induction on items and those inside them;
* `mem_rows_iff`, `pairwise_rows`: all items of a scope, depth first.
-/

namespace ConstantDump.Outline

/-! ## Items -/

/-- Something that is shown in a row of its own. -/
inductive Item
  | entry (name : Text) (entry : Entry)
  | enumerator (name : Text) (value : Int)
  deriving Repr

/-- The entries that are shown, in their order. -/
def itemsIn (entries : List (Text × Entry)) : List Item :=
  (entries.filter fun child => !child.2.isHidden).map fun child => .entry child.1 child.2

def shown (s : Scope) : List Item := itemsIn s.entries

def enumerators (items : List (Text × Int)) : List Item :=
  items.map fun item => .enumerator item.1 item.2

def Item.inside : Item → List Item
  | .entry _ (.value _) => []
  | .entry _ (.enumeration e) => enumerators e.items.entries
  | .entry _ (.record _ members) => shown members
  | .entry _ (.scope members) => shown members
  | .enumerator _ _ => []

theorem itemsIn_cons (name : Text) (entry : Entry) (rest : List (Text × Entry)) :
    itemsIn ((name, entry) :: rest) =
      (if entry.isHidden then [] else [.entry name entry]) ++ itemsIn rest := by
  cases hidden : entry.isHidden <;> simp [itemsIn, hidden]

theorem isEmpty_itemsIn (entries : List (Text × Entry)) :
    (itemsIn entries).isEmpty = entries.all fun child => child.2.isHidden := by
  induction entries with
  | nil => rfl
  | cons child rest ih =>
    rw [itemsIn_cons child.1 child.2 rest, List.all_cons]
    cases hidden : child.2.isHidden <;> simp [ih]

/-! ## Induction -/

/-- What is inside an item is smaller than the item. -/
noncomputable def weight : List Item → Nat
  | [] => 0
  | .entry _ entry :: rest => sizeOf entry + 1 + weight rest
  | .enumerator _ _ :: rest => 1 + weight rest

theorem weight_cons (item : Item) (rest : List Item) :
    weight (item :: rest) = weight [item] + weight rest := by
  cases item <;> simp [weight]

theorem weight_itemsIn_le (entries : List (Text × Entry)) :
    weight (itemsIn entries) ≤ sizeOf entries := by
  induction entries with
  | nil => simp [itemsIn, weight]
  | cons child rest ih =>
    obtain ⟨name, entry⟩ := child
    have size : sizeOf ((name, entry) :: rest) =
        1 + (1 + sizeOf name + sizeOf entry) + sizeOf rest := rfl
    rw [itemsIn_cons, size]
    cases entry.isHidden <;> simp [weight] <;> omega

theorem weight_enumerators_le (items : List (Text × Int)) :
    weight (enumerators items) ≤ sizeOf items := by
  induction items with
  | nil => simp [enumerators, weight]
  | cons item rest ih =>
    have size : sizeOf (item :: rest) = 1 + sizeOf item + sizeOf rest := rfl
    simp only [enumerators, List.map_cons, weight] at ih ⊢
    omega

theorem weight_inside_lt (item : Item) : weight item.inside < weight [item] := by
  match item with
  | .entry _ (.value _) => simp [Item.inside, weight]
  | .entry _ (.enumeration ⟨name, ⟨items⟩⟩) =>
    have := weight_enumerators_le items
    simp [Item.inside, weight]
    omega
  | .entry _ (.record _ ⟨entries⟩) =>
    have := weight_itemsIn_le entries
    simp [Item.inside, shown, weight]
    omega
  | .entry _ (.scope ⟨entries⟩) =>
    have := weight_itemsIn_le entries
    simp [Item.inside, shown, weight]
    omega
  | .enumerator _ _ => simp [Item.inside, weight]

theorem weight_inside_lt_cons (item : Item) (rest : List Item) :
    weight item.inside < weight (item :: rest) := by
  have := weight_inside_lt item
  rw [weight_cons]
  omega

theorem weight_rest_lt_cons (item : Item) (rest : List Item) :
    weight rest < weight (item :: rest) := by
  have := weight_inside_lt item
  rw [weight_cons]
  omega

/-- Induction on items, those inside each one and those behind it. -/
theorem items_induction {motive : List Item → Prop} (nil : motive [])
    (cons : ∀ item rest, motive item.inside → motive rest → motive (item :: rest)) :
    (items : List Item) → motive items
  | [] => nil
  | item :: rest =>
    cons item rest (items_induction nil cons item.inside) (items_induction nil cons rest)
  termination_by items => weight items
  decreasing_by
    · exact weight_inside_lt_cons item rest
    · exact weight_rest_lt_cons item rest

/-! ## Places -/

/-- Where an item is shown: its index among the items beside it, after those of the items around
it, the outermost one first. -/
abbrev Place := List Nat

def itemAt? : List Item → Place → Option Item
  | _, [] => none
  | items, [index] => items[index]?
  | items, index :: next :: rest =>
    items[index]?.bind fun item => itemAt? item.inside (next :: rest)

theorem itemAt?_nil (place : Place) : itemAt? [] place = none := by
  match place with
  | [] => rfl
  | [index] => rfl
  | index :: next :: rest => rfl

theorem itemAt?_cons (items : List Item) (index : Nat) {place : Place} (h : place ≠ []) :
    itemAt? items (index :: place) = items[index]?.bind fun item => itemAt? item.inside place := by
  cases place with
  | nil => exact absurd rfl h
  | cons next rest => rfl

/-- The rows of items inside another, seen from outside. -/
def under (index : Nat) (rows : List (Place × Item)) : List (Place × Item) :=
  rows.map fun row => (index :: row.1, row.2)

/-- Items with their places, each followed by those inside it. The first one has the given
index. -/
def rowsFrom (index : Nat) : List Item → List (Place × Item)
  | [] => []
  | item :: rest =>
    ([index], item) :: (under index (rowsFrom 0 item.inside) ++ rowsFrom (index + 1) rest)
  termination_by items => weight items
  decreasing_by
    · exact weight_inside_lt_cons item rest
    · exact weight_rest_lt_cons item rest

def rows (s : Scope) : List (Place × Item) := rowsFrom 0 (shown s)

theorem rowsFrom_nil (index : Nat) : rowsFrom index [] = [] := by rw [rowsFrom]

theorem rowsFrom_cons (index : Nat) (item : Item) (rest : List Item) :
    rowsFrom index (item :: rest) =
      ([index], item) :: (under index (rowsFrom 0 item.inside) ++ rowsFrom (index + 1) rest) := by
  rw [rowsFrom]

theorem mem_under {index : Nat} {rows : List (Place × Item)} {place : Place} {item : Item} :
    (place, item) ∈ under index rows ↔ ∃ rest, place = index :: rest ∧ (rest, item) ∈ rows := by
  constructor
  · intro mem
    obtain ⟨⟨rest, item⟩, there, same⟩ := List.mem_map.1 mem
    cases same
    exact ⟨rest, rfl, there⟩
  · rintro ⟨rest, rfl, there⟩
    exact List.mem_map.2 ⟨(rest, item), there, rfl⟩

/-- The place of a row begins with an index from the given one on. -/
theorem exists_cons_of_mem_rowsFrom {index : Nat} {items : List Item} {place : Place} {item : Item}
    (mem : (place, item) ∈ rowsFrom index items) :
    ∃ first rest, place = first :: rest ∧ index ≤ first := by
  induction items generalizing index with
  | nil =>
    rw [rowsFrom_nil] at mem
    cases mem
  | cons head items ih =>
    rw [rowsFrom_cons, List.mem_cons, List.mem_append, mem_under] at mem
    rcases mem with same | ⟨rest, rfl, -⟩ | later
    · cases same
      exact ⟨index, [], rfl, Nat.le_refl _⟩
    · exact ⟨index, rest, rfl, Nat.le_refl _⟩
    · obtain ⟨first, rest, rfl, le⟩ := ih later
      exact ⟨first, rest, rfl, Nat.le_of_succ_le le⟩

theorem ne_nil_of_mem_rowsFrom {index : Nat} {items : List Item} {place : Place} {item : Item}
    (mem : (place, item) ∈ rowsFrom index items) : place ≠ [] := by
  obtain ⟨first, rest, rfl, -⟩ := exists_cons_of_mem_rowsFrom mem
  exact List.cons_ne_nil _ _

/-- There is a row for each item at a place, and for nothing else. -/
theorem mem_rowsFrom_iff (index : Nat) (items : List Item) (place : Place) (item : Item) :
    (place, item) ∈ rowsFrom index items ↔
      ∃ first rest, place = (index + first) :: rest ∧
        itemAt? items (first :: rest) = some item := by
  induction items using items_induction generalizing index place item with
  | nil =>
    rw [rowsFrom_nil]
    constructor
    · intro mem
      cases mem
    · rintro ⟨first, rest, -, found⟩
      rw [itemAt?_nil] at found
      cases found
  | cons head items inside later =>
    rw [rowsFrom_cons, List.mem_cons, List.mem_append, mem_under, later]
    constructor
    · rintro (same | ⟨rest, rfl, mem⟩ | ⟨first, rest, rfl, found⟩)
      · cases same
        exact ⟨0, [], rfl, rfl⟩
      · obtain ⟨first, deeper, rfl, found⟩ := (inside 0 rest item).1 mem
        refine ⟨0, _, rfl, ?_⟩
        rw [Nat.zero_add]
        exact found
      · refine ⟨first + 1, rest, by rw [Nat.add_right_comm, Nat.add_assoc], ?_⟩
        cases rest <;> exact found
    · rintro ⟨first, rest, rfl, found⟩
      cases first with
      | zero =>
        cases rest with
        | nil =>
          cases found
          exact .inl rfl
        | cons next deeper =>
          refine .inr (.inl ⟨_, rfl, (inside 0 _ item).2 ⟨next, deeper, ?_, found⟩⟩)
          rw [Nat.zero_add]
      | succ first =>
        refine .inr (.inr ⟨first, rest, by rw [Nat.add_right_comm, Nat.add_assoc], ?_⟩)
        cases rest <;> exact found

theorem mem_rows_iff {s : Scope} {place : Place} {item : Item} :
    (place, item) ∈ rows s ↔ itemAt? (shown s) place = some item := by
  rw [rows, mem_rowsFrom_iff]
  constructor
  · rintro ⟨first, rest, rfl, found⟩
    rwa [Nat.zero_add]
  · intro found
    cases place with
    | nil => cases found
    | cons first rest => exact ⟨first, rest, by rw [Nat.zero_add], found⟩

/-- An item comes before those inside it, and those before the items that follow it. -/
theorem pairwise_rowsFrom (index : Nat) (items : List Item) :
    (rowsFrom index items).Pairwise fun row later => row.1 < later.1 := by
  induction items using items_induction generalizing index with
  | nil =>
    rw [rowsFrom_nil]
    exact .nil
  | cons head items inside later =>
    have above : ∀ row ∈ rowsFrom (index + 1) items, ∀ rest, index :: rest < row.1 := by
      rintro ⟨place, item⟩ mem rest
      obtain ⟨first, deeper, rfl, le⟩ := exists_cons_of_mem_rowsFrom mem
      exact List.cons_lt_cons_iff.2 (.inl le)
    rw [rowsFrom_cons, List.pairwise_cons, List.pairwise_append]
    refine ⟨?_, ?_, later (index + 1), ?_⟩
    · rintro ⟨place, item⟩ mem
      rcases List.mem_append.1 mem with here | there
      · obtain ⟨rest, rfl, deeper⟩ := mem_under.1 here
        obtain ⟨first, rest, rfl, -⟩ := exists_cons_of_mem_rowsFrom deeper
        exact List.cons_lt_cons_iff.2 (.inr ⟨rfl, List.nil_lt_cons ..⟩)
      · exact above _ there []
    · rw [under, List.pairwise_map]
      exact (inside 0).imp fun order => List.cons_lt_cons_iff.2 (.inr ⟨rfl, order⟩)
    · rintro ⟨place, item⟩ here row there
      obtain ⟨rest, rfl, -⟩ := mem_under.1 here
      exact above row there rest

theorem pairwise_rows (s : Scope) : (rows s).Pairwise fun row later => row.1 < later.1 :=
  pairwise_rowsFrom 0 (shown s)

end ConstantDump.Outline
