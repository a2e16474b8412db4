import ConstantDump.Proofs.Outline.Rows
import ConstantDump.Proofs.Reader.OneLine

/-!
Reading the tree view back. A row says how deep its entry is, what is shown after it and after
those around it, and what the entry is.

* `readRow_row`: a row is read as what it was drawn from;
* `labelsOneLine`: no label has a line feed when no name and no value has one;
* `tree_reads_back`: the tree view, read row by row.
-/

namespace ConstantDump.Outline

open Text

/-! ## Rows -/

structure Reading where
  /-- Whether there is a line in each block before the mark. -/
  guide : List Bool
  /-- Whether the mark is that of a last entry. -/
  isLast : Bool
  label : Text
  deriving DecidableEq, Repr

/-- A row with one more block before it. -/
def Reading.within (line : Bool) (r : Reading) : Reading := { r with guide := line :: r.guide }

/-- Reads a row: blocks of five columns up to the first mark, and the label behind it. -/
def readRow : Text → Option Reading
  | '+' :: '-' :: '-' :: '-' :: ' ' :: label => some ⟨[], false, label⟩
  | '\x60' :: '-' :: '-' :: '-' :: ' ' :: label => some ⟨[], true, label⟩
  | '|' :: ' ' :: ' ' :: ' ' :: ' ' :: rest => (readRow rest).map (Reading.within true)
  | ' ' :: ' ' :: ' ' :: ' ' :: ' ' :: rest => (readRow rest).map (Reading.within false)
  | _ => none

theorem readRow_mark (isLast : Bool) (label : Text) :
    readRow (treeMark isLast ++ label) = some ⟨[], isLast, label⟩ := by
  cases isLast <;> rfl

theorem readRow_guide (line : Bool) (rest : Text) :
    readRow (treeGuide (!line) ++ rest) = (readRow rest).map (Reading.within line) := by
  cases line <;> rfl

theorem readRow_row (guide : List Bool) (isLast : Bool) (label : Text) :
    readRow (guide.flatMap (fun line => treeGuide !line) ++ (treeMark isLast ++ label)) =
      some ⟨guide, isLast, label⟩ := by
  induction guide with
  | nil => exact readRow_mark isLast label
  | cons line guide ih =>
    rw [List.flatMap_cons, List.append_assoc, readRow_guide, ih]
    rfl

/-! ## Labels -/

def LabelsOneLine (s : Scope) : Prop :=
  ∀ place item, itemAt? (shown s) place = some item → item.label.OneLine

theorem oneLine_itemText {name : Text} (h : name.OneLine) (value : Int) :
    (itemText name value).OneLine :=
  oneLine_append.2 ⟨oneLine_append.2 ⟨h, by decide⟩, oneLine_ofInt value⟩

theorem oneLine_label {name : Text} {entry : Entry} (named : name.OneLine)
    (texts : ∀ t ∈ entry.texts, t.OneLine) : (Item.entry name entry).label.OneLine := by
  have pieces : ∀ piece ∈ (Item.entry name entry).pieces, piece.OneLine := by
    cases entry with
    | value v =>
      have shown : v.display.OneLine := texts _ (List.mem_singleton.2 rfl)
      simpa [Item.pieces] using ⟨named, by decide, shown⟩
    | enumeration e => simpa [Item.pieces] using ⟨named, by decide⟩
    | record r members =>
      have fields : (fieldList r).OneLine :=
        oneLine_join (by decide) fun field mem => texts field (.tail _ mem)
      simpa [Item.pieces] using ⟨named, by decide, fields, by decide⟩
    | scope members => simpa [Item.pieces] using named
  intro mem
  obtain ⟨piece, inside, feed⟩ := List.mem_flatten.1 mem
  exact pieces piece inside feed

/-- The items of a scope are entries of it. -/
theorem mem_shown {s : Scope} {item : Item} (h : item ∈ shown s) :
    ∃ name entry, (name, entry) ∈ s.entries ∧ item = .entry name entry := by
  obtain ⟨child, kept, rfl⟩ := List.mem_map.1 h
  exact ⟨child.1, child.2, (List.mem_filter.1 kept).1, rfl⟩

/-- The items of an enumeration are its enumerators, and nothing is inside them. -/
theorem itemAt?_enumerators {items : List (Text × Int)} {place : Place} {item : Item}
    (h : itemAt? (enumerators items) place = some item) :
    ∃ name value, (name, value) ∈ items ∧ item = .enumerator name value := by
  have among {index : Nat} {item : Item} (h : (enumerators items)[index]? = some item) :
      ∃ name value, (name, value) ∈ items ∧ item = .enumerator name value := by
    obtain ⟨pair, mem, rfl⟩ := List.mem_map.1 (List.mem_of_getElem? h)
    exact ⟨pair.1, pair.2, mem, rfl⟩
  match place with
  | [index] => exact among h
  | index :: next :: rest =>
    obtain ⟨outer, there, inner⟩ := Option.bind_eq_some_iff.1 h
    obtain ⟨name, value, -, rfl⟩ := among there
    rw [Item.inside, itemAt?_nil] at inner
    cases inner

theorem labelsOneLine {s : Scope} (h : s.OneLine) : LabelsOneLine s := by
  intro place item found
  induction place generalizing s with
  | nil => cases found
  | cons index place ih =>
    have entry {name : Text} {entry : Entry} (mem : (name, entry) ∈ s.entries) :
        name.OneLine ∧ ∀ t ∈ entry.texts, t.OneLine := by
      obtain ⟨keys, texts⟩ := h _ _ (.here mem)
      exact ⟨keys name (List.mem_singleton.2 rfl), texts⟩
    by_cases own : place = []
    · subst own
      obtain ⟨name, child, mem, rfl⟩ := mem_shown (List.mem_of_getElem? found)
      exact oneLine_label (entry mem).1 (entry mem).2
    · rw [itemAt?_cons _ _ own] at found
      obtain ⟨outer, there, inner⟩ := Option.bind_eq_some_iff.1 found
      obtain ⟨name, child, mem, rfl⟩ := mem_shown (List.mem_of_getElem? there)
      cases child with
      | value v =>
        rw [Item.inside, itemAt?_nil] at inner
        cases inner
      | enumeration e =>
        obtain ⟨enumerator, value, held, rfl⟩ := itemAt?_enumerators inner
        have key : enumerator ∈ e.items.keys := List.mem_map.2 ⟨_, held, rfl⟩
        simpa [Item.label, Item.pieces] using
          oneLine_itemText ((entry mem).2 enumerator key) value
      | record r members => exact ih (h.inside (.here mem) rfl) inner
      | scope members => exact ih (h.inside (.here mem) rfl) inner

/-! ## The tree view -/

theorem splitOnP_written {ls : List Text} (h : ∀ line ∈ ls, line.OneLine) :
    (written ls).splitOnP (· == '\n') = ls ++ [[]] := by
  induction ls with
  | nil => rfl
  | cons line rest ih =>
    have shape : written (line :: rest) = line ++ '\n' :: written rest := by simp [written]
    have single : ∀ c ∈ line, (c == '\n') = false := fun c mem => by
      rw [beq_eq_false_iff_ne]
      rintro rfl
      exact h line (List.mem_cons_self ..) mem
    rw [shape, List.splitOnP_append_cons_of_forall_mem single '\n' rfl,
      ih fun other mem => h other (.tail _ mem)]
    rfl

def rowText (items : List Item) (row : Place × Item) : Text :=
  (around items row.1).flatMap (fun later => treeGuide !later) ++
    (treeMark (!hasLater items row.1) ++ row.2.label)

theorem textOf_treeRow (items : List Item) (row : Place × Item) :
    Fragment.textOf (treeRow [] items row) = rowText items row ++ ['\n'] := by
  have label : Fragment.textOf (row.2.pieces.map .text) = row.2.label := by
    rw [Fragment.textOf, List.flatMap_map, Item.label, ← List.flatMap_id]
    rfl
  rw [treeRow, rowAfter, Fragment.textOf, List.flatMap_append, List.flatMap_append]
  change _ ++ Fragment.textOf (row.2.pieces.map .text) ++ _ = _
  rw [label]
  simp [rowText, Fragment.toText]

theorem oneLine_rowText (items : List Item) {row : Place × Item} (h : row.2.label.OneLine) :
    (rowText items row).OneLine := by
  have guide : OneLine ((around items row.1).flatMap fun later => treeGuide !later) := fun mem => by
    obtain ⟨later, -, feed⟩ := List.mem_flatMap.1 mem
    cases later <;> revert feed <;> decide
  have mark (isLast : Bool) : (treeMark isLast).OneLine := by cases isLast <;> decide
  exact oneLine_append.2 ⟨guide, oneLine_append.2 ⟨mark _, h⟩⟩

theorem textOf_tree (s : Scope) :
    Fragment.textOf (tree s) = written (treeHeading :: (rows s).map (rowText (shown s))) := by
  have body : Fragment.textOf ((rows s).flatMap (treeRow [] (shown s))) =
      written ((rows s).map (rowText (shown s))) := by
    rw [Fragment.textOf, List.flatMap_assoc, written, List.flatMap_map]
    exact List.flatMap_congr fun row _ => textOf_treeRow (shown s) row
  rw [tree_eq_rows, Fragment.textOf, List.flatMap_append]
  exact congrArg _ body

theorem readRow_rowText (items : List Item) (row : Place × Item) :
    readRow (rowText items row) =
      some ⟨around items row.1, !hasLater items row.1, row.2.label⟩ :=
  readRow_row _ _ _

/-- After the heading, the tree view of a scope without line feeds in its labels is one line for
each item, at any depth and in order, and the line tells where the item is: there is a block before
the mark for each item around it, with a line in it just when another one is shown after that item;
the mark is the last one's just when nothing is shown after the item itself. All that has been
loaded from dumps is such a scope. -/
theorem tree_reads_back :
    (∀ s, LabelsOneLine s → ∃ lines,
      (Fragment.textOf (tree s)).splitOnP (· == '\n') = treeHeading :: lines ++ [[]] ∧
      lines.map readRow = (rows s).map fun row => some
        { guide := (List.range (row.1.length - 1)).map fun depth =>
            hasLater (shown s) (row.1.take (depth + 1))
          isLast := !hasLater (shown s) row.1
          label := row.2.label }) ∧
    (∀ s place item, (place, item) ∈ rows s ↔ itemAt? (shown s) place = some item) ∧
    (∀ s, (rows s).Pairwise fun row later => row.1 < later.1) ∧
    (∀ data : SourceData, data.Loaded → LabelsOneLine data.scope) ∧
    ∀ (reader : Reader) (dump : Text), LabelsOneLine (reader.read dump).scope := by
  refine ⟨fun s single => ⟨(rows s).map (rowText (shown s)), ?_, ?_⟩,
    fun _ _ _ => mem_rows_iff, pairwise_rows, fun data loaded => labelsOneLine loaded.oneLine,
    fun reader dump => labelsOneLine (Reader.oneLine_readInto Scope.oneLine_empty _ dump)⟩
  · rw [textOf_tree]
    refine splitOnP_written (List.forall_mem_cons.2 ⟨by decide, fun line mem => ?_⟩)
    obtain ⟨row, there, rfl⟩ := List.mem_map.1 mem
    exact oneLine_rowText _ (single row.1 row.2 (mem_rows_iff.1 there))
  · rw [List.map_map]
    exact List.map_congr_left fun row _ => readRow_rowText (shown s) row

/-- A scope with a mark and a guide in one of its names. The last entry inside that one is empty. -/
def marked : Scope :=
  ⟨[("`--- |    a".toList,
      .scope ⟨[("x".toList, .value (.int 1)), ("gone".toList, .scope .empty)]⟩),
    ("E".toList, .enumeration ⟨"E".toList, ⟨[("A".toList, 0), ("B".toList, 1)]⟩⟩)]⟩

theorem rows_marked :
    (rows marked).map (fun row => (row.1, row.2.label)) =
      [([0], "`--- |    a".toList), ([0, 0], "x = 1".toList), ([1], "E (enum)".toList),
        ([1, 0], "A = 0".toList), ([1, 1], "B = 1".toList)] := by
  simp only [rows, marked, shown, itemsIn, List.filter, Entry.isHidden, OrderedMap.isEmpty,
    OrderedMap.empty, List.isEmpty, Bool.not_true, Bool.not_false, List.map, rowsFrom_cons,
    rowsFrom_nil, Item.inside, enumerators, under, List.append_nil, List.nil_append,
    List.cons_append, Nat.zero_add]
  rfl

theorem tree_reads_back_marked :
    LabelsOneLine marked ∧ ∃ lines,
      (Fragment.textOf (tree marked)).splitOnP (· == '\n') = treeHeading :: lines ++ [[]] ∧
      lines.map readRow =
        [some ⟨[], false, "`--- |    a".toList⟩, some ⟨[true], true, "x = 1".toList⟩,
          some ⟨[], true, "E (enum)".toList⟩, some ⟨[false], false, "A = 0".toList⟩,
          some ⟨[false], true, "B = 1".toList⟩] := by
  have single : LabelsOneLine marked := fun place item found => by
    have labels : ∀ row ∈ (rows marked).map (fun row => (row.1, row.2.label)), row.2.OneLine := by
      rw [rows_marked]
      decide
    exact labels _ (List.mem_map.2 ⟨_, mem_rows_iff.2 found, rfl⟩)
  obtain ⟨reads, -⟩ := tree_reads_back
  obtain ⟨lines, split, read⟩ := reads marked single
  refine ⟨single, lines, split, ?_⟩
  have placed := congrArg (List.map fun row : Place × Text => some
    (⟨around (shown marked) row.1, !hasLater (shown marked) row.1, row.2⟩ : Reading)) rows_marked
  rw [List.map_map] at placed
  exact (read.trans placed).trans (by decide)

end ConstantDump.Outline
