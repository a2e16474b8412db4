import ConstantDump.Outline.Listing
import ConstantDump.Proofs.Outline.Rows

/-!
The listing line by line, and how it compares with the tree view.

* `listing_eq_lines`: each item has its line, and a closing brace behind what is inside it;
* `filter_lines`: without the closing braces there is one line for each row of the tree view;
* `enclosed_lines`: between an item's line and its closing brace are the items inside it;
* `views_agree`: all of it put together.
-/

namespace ConstantDump.Outline

/-- How many items are around a place. -/
def depth (place : Place) : Nat := place.length - 1

/-- Whether braces follow an item's line: a record has none when nothing was declared inside it. -/
def Item.opens : Item → Bool
  | .entry _ (.value _) => false
  | .entry _ (.enumeration _) => true
  | .entry _ (.record _ members) => !members.isEmpty
  | .entry _ (.scope _) => true
  | .enumerator _ _ => false

def Item.heading : Item → Text
  | .entry name (.value v) => name ++ " = ".toList ++ v.display
  | .entry name (.enumeration _) => "enum ".toList ++ name
  | .entry name (.record r _) => "record ".toList ++ name ++ '(' :: fieldList r ++ [')']
  | .entry name (.scope _) => name
  | .enumerator name value => itemText name value

theorem Item.inside_of_not_opens {item : Item} (h : item.opens = false) : item.inside = [] := by
  match item with
  | .entry _ (.value _) => rfl
  | .entry _ (.record _ ⟨[]⟩) => rfl
  | .enumerator _ _ => rfl

/-! ## Lines -/

inductive Line
  | row (place : Place) (item : Item)
  /-- Closes the braces of the item at the place. -/
  | closing (place : Place)
  deriving Repr

namespace Line

def place : Line → Place
  | .row place _ => place
  | .closing place => place

def text : Line → Text
  | .row _ item => item.heading ++ if item.opens then openBrace else []
  | .closing _ => closingBrace

/-- A line inside another item, seen from outside. -/
def under (index : Nat) : Line → Line
  | .row place item => .row (index :: place) item
  | .closing place => .closing (index :: place)

@[simp] theorem place_under (index : Nat) (line : Line) :
    (line.under index).place = index :: line.place := by
  cases line <;> rfl

@[simp] theorem text_under (index : Nat) (line : Line) : (line.under index).text = line.text := by
  cases line <;> rfl

def fragments (width level : Nat) (line : Line) : List Fragment :=
  listingLine width (level + depth line.place) line.text

theorem fragments_under (width level index : Nat) {line : Line} (h : line.place ≠ []) :
    (line.under index).fragments width level = line.fragments width (level + 1) := by
  have deeper : depth (index :: line.place) = depth line.place + 1 := by
    have := List.length_pos_iff.2 h
    simp only [depth, List.length_cons]
    omega
  rw [fragments, fragments, place_under, text_under, deeper, Nat.add_right_comm, Nat.add_assoc]

/-- There is a blank in each line but those that close braces. -/
theorem blank_mem_text (place : Place) (item : Item) : ' ' ∈ (row place item).text := by
  have equals : ' ' ∈ " = ".toList := by decide
  have record : ' ' ∈ "record ".toList := by decide
  match item with
  | .entry name (.value v) =>
    exact List.mem_append_left _ (List.mem_append_left _ (List.mem_append_right _ equals))
  | .entry name (.enumeration _) => exact List.mem_append_right _ (List.mem_cons_self ..)
  | .entry name (.record r members) =>
    exact List.mem_append_left _ (List.mem_append_left _ (List.mem_append_left _
      (List.mem_append_left _ record)))
  | .entry name (.scope _) => exact List.mem_append_right _ (List.mem_cons_self ..)
  | .enumerator name value =>
    exact List.mem_append_left _ (List.mem_append_left _ (List.mem_append_right _ equals))

/-- Just the closing braces stand alone on their lines. -/
theorem text_row_ne (place : Place) (item : Item) : (row place item).text ≠ closingBrace := by
  intro same
  have blank := blank_mem_text place item
  rw [same] at blank
  simp [closingBrace] at blank

end Line

def closingLines (index : Nat) (item : Item) : List Line :=
  if item.opens then [.closing [index]] else []

def linesFrom (index : Nat) : List Item → List Line
  | [] => []
  | item :: rest =>
    .row [index] item :: (linesFrom 0 item.inside).map (Line.under index) ++
      closingLines index item ++ linesFrom (index + 1) rest
  termination_by items => weight items
  decreasing_by
    · exact weight_inside_lt_cons item rest
    · exact weight_rest_lt_cons item rest

def lines (s : Scope) : List Line := linesFrom 0 (shown s)

def itemLines (index : Nat) (item : Item) : List Line :=
  .row [index] item :: (linesFrom 0 item.inside).map (Line.under index) ++ closingLines index item

theorem linesFrom_nil (index : Nat) : linesFrom index [] = [] := by rw [linesFrom]

theorem linesFrom_cons (index : Nat) (item : Item) (rest : List Item) :
    linesFrom index (item :: rest) = itemLines index item ++ linesFrom (index + 1) rest := by
  rw [linesFrom, itemLines]

theorem place_of_mem_closingLines {index : Nat} {item : Item} {line : Line}
    (mem : line ∈ closingLines index item) : line.place = [index] := by
  unfold closingLines at mem
  split at mem
  · rw [List.mem_singleton.1 mem]
    rfl
  · cases mem

theorem place_of_mem_itemLines {index : Nat} {item : Item} {line : Line}
    (mem : line ∈ itemLines index item) : ∃ rest, line.place = index :: rest := by
  rw [itemLines, List.mem_append, List.mem_cons] at mem
  rcases mem with (rfl | inside) | closing
  · exact ⟨[], rfl⟩
  · obtain ⟨inner, -, rfl⟩ := List.mem_map.1 inside
    exact ⟨inner.place, inner.place_under index⟩
  · exact ⟨[], place_of_mem_closingLines closing⟩

/-- The place of a line begins with an index from the given one on. -/
theorem place_of_mem_linesFrom {index : Nat} {items : List Item} {line : Line}
    (mem : line ∈ linesFrom index items) :
    ∃ first rest, line.place = first :: rest ∧ index ≤ first := by
  induction items generalizing index with
  | nil =>
    rw [linesFrom_nil] at mem
    cases mem
  | cons item rest ih =>
    rw [linesFrom_cons, List.mem_append] at mem
    rcases mem with here | later
    · obtain ⟨deeper, same⟩ := place_of_mem_itemLines here
      exact ⟨index, deeper, same, Nat.le_refl _⟩
    · obtain ⟨first, deeper, same, le⟩ := ih later
      exact ⟨first, deeper, same, Nat.le_of_succ_le le⟩

theorem place_ne_nil_of_mem_linesFrom {index : Nat} {items : List Item} {line : Line}
    (mem : line ∈ linesFrom index items) : line.place ≠ [] := by
  obtain ⟨first, rest, same, -⟩ := place_of_mem_linesFrom mem
  rw [same]
  exact List.cons_ne_nil _ _

/-! ## The listing -/

/-- The fragments of an item's line, of what is inside it and of what follows it. -/
theorem flatMap_fragments_itemLines (width level index : Nat) (item : Item) :
    (itemLines index item).flatMap (Line.fragments width level) =
      listingLine width level (Line.row [index] item).text ++
        (linesFrom 0 item.inside).flatMap (Line.fragments width (level + 1)) ++
        if item.opens then listingLine width level closingBrace else [] := by
  have inside : ((linesFrom 0 item.inside).map (Line.under index)).flatMap
      (Line.fragments width level) =
        (linesFrom 0 item.inside).flatMap (Line.fragments width (level + 1)) := by
    rw [List.flatMap_map]
    exact List.flatMap_congr fun line mem =>
      Line.fragments_under width level index (place_ne_nil_of_mem_linesFrom mem)
  have closing : (closingLines index item).flatMap (Line.fragments width level) =
      if item.opens then listingLine width level closingBrace else [] := by
    unfold closingLines
    split
    · exact List.append_nil _
    · rfl
  rw [itemLines, List.flatMap_append, List.flatMap_cons, inside, closing]
  rfl

theorem listingItems_eq (width level index : Nat) (items : List (Text × Int)) :
    listingItems width level items =
      (linesFrom index (enumerators items)).flatMap (Line.fragments width level) := by
  induction items generalizing index with
  | nil =>
    rw [enumerators, List.map_nil, linesFrom_nil]
    rfl
  | cons item rest ih =>
    have same : enumerators (item :: rest) = .enumerator item.1 item.2 :: enumerators rest := rfl
    have none : linesFrom 0 (Item.enumerator item.1 item.2).inside = [] := linesFrom_nil 0
    have plain : (Line.row [index] (.enumerator item.1 item.2)).text = itemText item.1 item.2 :=
      List.append_nil _
    rw [same, linesFrom_cons, List.flatMap_append, ← ih, flatMap_fragments_itemLines, none, plain]
    rfl

mutual

/-- An entry's line, and the lines of what is inside it. -/
theorem listingEntry_eq (width level index : Nat) (name : Text) : (entry : Entry) →
    listingEntry width level name entry =
      (itemLines index (.entry name entry)).flatMap (Line.fragments width level)
  | .value v => by
    have text : (Line.row [index] (.entry name (.value v))).text =
        name ++ " = ".toList ++ v.display := List.append_nil _
    rw [flatMap_fragments_itemLines, Item.inside, linesFrom_nil, listingEntry, text]
    rfl
  | .enumeration e => by
    have text : (Line.row [index] (.entry name (.enumeration e))).text =
        "enum ".toList ++ name ++ openBrace := rfl
    rw [flatMap_fragments_itemLines, listingEntry, listingItems_eq _ _ 0, text]
    rfl
  | .record r members => by
    have text : (Line.row [index] (.entry name (.record r members))).text =
        "record ".toList ++ name ++ '(' :: fieldList r ++ [')'] ++
          if !members.isEmpty then openBrace else [] := rfl
    rw [flatMap_fragments_itemLines, listingEntry, listingMembers_eq width (level + 1) members,
      text]
    cases none : members.isEmpty with
    | true =>
      have nothing : (Item.entry name (.record r members)).inside = [] :=
        Item.inside_of_not_opens (by simp [Item.opens, none])
      rw [nothing, linesFrom_nil]
      simp only [Item.opens, none, Bool.not_true, Bool.false_eq_true, ↓reduceIte,
        List.append_nil, List.flatMap_nil]
    | false =>
      simp only [Item.opens, Item.inside, none, Bool.not_false, Bool.false_eq_true, ↓reduceIte]
  | .scope members => by
    rw [flatMap_fragments_itemLines, listingEntry, listingMembers_eq width (level + 1) members]
    rfl

theorem listingMembers_eq (width level : Nat) : (members : OrderedMap Entry) →
    listingMembers width level members =
      (linesFrom 0 (shown members)).flatMap (Line.fragments width level)
  | ⟨entries⟩ => by
    rw [listingMembers, listingEntries_eq width level 0]
    rfl

theorem listingEntries_eq (width level index : Nat) : (entries : List (Text × Entry)) →
    listingEntries width level entries =
      (linesFrom index (itemsIn entries)).flatMap (Line.fragments width level)
  | [] => by
    rw [itemsIn, List.filter_nil, List.map_nil, linesFrom_nil]
    rfl
  | (name, entry) :: rest => by
    rw [listingEntries, itemsIn_cons]
    cases entry.isHidden with
    | true => exact listingEntries_eq width level index rest
    | false =>
      simp only [Bool.false_eq_true, ↓reduceIte, List.singleton_append]
      rw [listingEntries_eq width level (index + 1) rest, listingEntry_eq width level index,
        linesFrom_cons, List.flatMap_append]

end

theorem listing_eq_lines (width : Nat) (s : Scope) :
    listing width s = (lines s).flatMap (Line.fragments width 0) :=
  listingMembers_eq width 0 s

/-! ## One line for each row -/

def rowLines (rows : List (Place × Item)) : List Line := rows.map fun row => .row row.1 row.2

def withoutClosing (lines : List Line) : List Line :=
  lines.filter fun line => line.text ≠ closingBrace

theorem withoutClosing_append (first last : List Line) :
    withoutClosing (first ++ last) = withoutClosing first ++ withoutClosing last :=
  List.filter_append first last

theorem withoutClosing_linesFrom (index : Nat) (items : List Item) :
    withoutClosing (linesFrom index items) = rowLines (rowsFrom index items) := by
  induction items using items_induction generalizing index with
  | nil =>
    rw [linesFrom_nil, rowsFrom_nil]
    rfl
  | cons item rest inside later =>
    have shifted : withoutClosing ((linesFrom 0 item.inside).map (Line.under index)) =
        rowLines (under index (rowsFrom 0 item.inside)) := by
      have same : (fun line : Line => decide (line.text ≠ closingBrace)) ∘ Line.under index =
          fun line => decide (line.text ≠ closingBrace) := by
        funext line
        rw [Function.comp_apply, Line.text_under]
      rw [withoutClosing, List.filter_map, same]
      exact (congrArg _ (inside 0)).trans (by simp [rowLines, under, Line.under])
    have closing : withoutClosing (closingLines index item) = [] := by
      refine List.filter_eq_nil_iff.2 fun line mem => ?_
      unfold closingLines at mem
      split at mem
      · simp [List.mem_singleton.1 mem, Line.text]
      · cases mem
    have own : withoutClosing [.row [index] item] = [.row [index] item] :=
      List.filter_cons_of_pos (decide_eq_true (Line.text_row_ne _ _))
    rw [linesFrom_cons, rowsFrom_cons, itemLines, ← List.singleton_append, withoutClosing_append,
      withoutClosing_append, withoutClosing_append, own, shifted, closing, later]
    simp [rowLines]

/-! ## Braces -/

/-- Among the lines, those inside an item are the ones between its own line and the line that
closes its braces. -/
def Enclosed (lines : List Line) (place : Place) (item : Item) : Prop :=
  ∃ before inside after,
    lines = before ++ .row place item :: (inside ++ .closing place :: after) ∧
    (∀ line ∈ inside, place <+: line.place ∧ line.place ≠ place) ∧
    ∀ line ∈ before ++ after, ¬ place <+: line.place

theorem Enclosed.append {lines : List Line} {place : Place} {item : Item}
    (h : Enclosed lines place item) (first last : List Line)
    (outside : ∀ line ∈ first ++ last, ¬ place <+: line.place) :
    Enclosed (first ++ lines ++ last) place item := by
  obtain ⟨before, inside, after, rfl, within, others⟩ := h
  refine ⟨first ++ before, inside, after ++ last, by simp, within, fun line mem => ?_⟩
  simp only [List.mem_append] at mem outside others
  rcases mem with (mem | mem) | mem | mem
  · exact outside line (.inl mem)
  · exact others line (.inl mem)
  · exact others line (.inr mem)
  · exact outside line (.inr mem)

theorem Enclosed.under {lines : List Line} {place : Place} {item : Item}
    (h : Enclosed lines place item) (index : Nat) :
    Enclosed (lines.map (Line.under index)) (index :: place) item := by
  obtain ⟨before, inside, after, rfl, within, others⟩ := h
  refine ⟨before.map (Line.under index), inside.map (Line.under index),
    after.map (Line.under index), by simp [Line.under], fun line mem => ?_, fun line mem => ?_⟩
  · obtain ⟨inner, there, rfl⟩ := List.mem_map.1 mem
    obtain ⟨below, other⟩ := within inner there
    rw [Line.place_under]
    exact ⟨List.cons_prefix_cons.2 ⟨rfl, below⟩, fun same => other (List.cons.inj same).2⟩
  · rw [← List.map_append] at mem
    obtain ⟨inner, there, rfl⟩ := List.mem_map.1 mem
    rw [Line.place_under, List.cons_prefix_cons]
    exact fun below => others inner there below.2

/-- The braces of an item enclose the lines of what is inside it. -/
theorem enclosed_itemLines {item : Item} (opens : item.opens = true) (index : Nat) :
    Enclosed (itemLines index item) [index] item := by
  refine ⟨[], (linesFrom 0 item.inside).map (Line.under index), [], ?_, fun line mem => ?_, ?_⟩
  · rw [itemLines, closingLines, if_pos opens]
    rfl
  · obtain ⟨inner, there, rfl⟩ := List.mem_map.1 mem
    rw [Line.place_under]
    exact ⟨List.cons_prefix_cons.2 ⟨rfl, List.nil_prefix⟩, fun same =>
      place_ne_nil_of_mem_linesFrom there (List.cons.inj same).2⟩
  · simp

theorem enclosed_linesFrom (index : Nat) (items : List Item) {place : Place} {item : Item}
    (mem : .row place item ∈ linesFrom index items) (opens : item.opens = true) :
    Enclosed (linesFrom index items) place item := by
  induction items using items_induction generalizing index place with
  | nil =>
    rw [linesFrom_nil] at mem
    cases mem
  | cons head rest inside later =>
    rw [linesFrom_cons] at mem ⊢
    rcases List.mem_append.1 mem with here | behind
    · -- The lines of the items that follow begin with another index.
      obtain ⟨deeper, same⟩ := place_of_mem_itemLines here
      have enclosed : Enclosed (itemLines index head) place item := by
        rw [itemLines, List.mem_append, List.mem_cons] at here
        rcases here with (own | within) | closing
        · cases own
          exact enclosed_itemLines opens index
        · obtain ⟨inner, there, shifted⟩ := List.mem_map.1 within
          cases inner with
          | closing _ => cases shifted
          | row lower _ =>
            cases shifted
            refine ((inside 0 there).under index).append [.row [index] head]
              (closingLines index head) fun line mem below => ?_
            have short : line.place = [index] := by
              rcases List.mem_cons.1 mem with rfl | closing
              · rfl
              · exact place_of_mem_closingLines closing
            rw [short] at below
            exact place_ne_nil_of_mem_linesFrom there
              (List.prefix_nil.1 (List.cons_prefix_cons.1 below).2)
        · unfold closingLines at closing
          split at closing <;> simp at closing
      refine enclosed.append [] (linesFrom (index + 1) rest) fun line mem below => ?_
      obtain ⟨first, further, begins, le⟩ := place_of_mem_linesFrom mem
      rw [show place = index :: deeper from same, begins, List.cons_prefix_cons] at below
      omega
    · obtain ⟨first, further, begins, le⟩ := place_of_mem_linesFrom behind
      have enclosed := (later (index + 1) behind).append (itemLines index head) []
        fun line mem below => by
          rw [List.append_nil] at mem
          obtain ⟨deeper, same⟩ := place_of_mem_itemLines mem
          rw [show place = first :: further from begins, same, List.cons_prefix_cons] at below
          omega
      rwa [List.append_nil] at enclosed

/-- A brace closes what a line before it opened. -/
theorem opening_of_mem_linesFrom (index : Nat) (items : List Item) {place : Place}
    (mem : .closing place ∈ linesFrom index items) :
    ∃ item, .row place item ∈ linesFrom index items ∧ item.opens = true := by
  induction items using items_induction generalizing index place with
  | nil =>
    rw [linesFrom_nil] at mem
    cases mem
  | cons head rest inside later =>
    rw [linesFrom_cons, itemLines] at mem ⊢
    simp only [List.mem_append, List.mem_cons, reduceCtorEq, false_or] at mem ⊢
    rcases mem with (within | closing) | behind
    · obtain ⟨inner, there, shifted⟩ := List.mem_map.1 within
      cases inner with
      | row _ _ => cases shifted
      | closing lower =>
        cases shifted
        obtain ⟨item, found, opens⟩ := inside 0 there
        exact ⟨item, .inl (.inl (.inr (List.mem_map.2 ⟨_, found, rfl⟩))), opens⟩
    · unfold closingLines at closing
      split at closing
      · cases List.mem_singleton.1 closing
        exact ⟨head, .inl (.inl (.inl rfl)), by assumption⟩
      · cases closing
    · obtain ⟨item, found, opens⟩ := later (index + 1) behind
      exact ⟨item, .inr found, opens⟩

/-! ## Both views -/

/-- The tree view and the listing show the same items in the same order, each as deep inside
others as it is in the scope: behind as many blocks in the one, as many levels to the right in the
other. The lines that the listing has besides are the closing braces: one for each item that
opens braces and for no other, at the level of that item and right after what is inside it. -/
theorem views_agree (s : Scope) :
    (∀ place item, (place, item) ∈ rows s ↔ itemAt? (shown s) place = some item) ∧
    (rows s).Pairwise (fun row later => row.1 < later.1) ∧
    (∃ (guide : Place → List Bool) (isLast : Place → Bool),
      (∀ row ∈ rows s, (guide row.1).length = depth row.1) ∧
      tree s = [.text treeHeading, .newline] ++ (rows s).flatMap fun row =>
        [.text ((guide row.1).flatMap treeGuide), .text (treeMark (isLast row.1))] ++
          row.2.pieces.map .text ++ [.newline]) ∧
    (∀ width, listing width s = (lines s).flatMap fun line =>
      [.indent (depth line.place * width), .text line.text, .newline]) ∧
    (lines s).filter (fun line => line.text ≠ ['}']) =
      (rows s).map (fun row => .row row.1 row.2) ∧
    (∀ place, .closing place ∈ lines s → ∃ item, .row place item ∈ lines s ∧ item.opens) ∧
    ∀ place item, .row place item ∈ lines s → item.opens →
      ∃ before inside after,
        lines s = before ++ .row place item :: (inside ++ .closing place :: after) ∧
        (∀ line ∈ inside, place <+: line.place ∧ line.place ≠ place) ∧
        ∀ line ∈ before ++ after, ¬ place <+: line.place := by
  refine ⟨fun place item => mem_rows_iff, pairwise_rows s,
    ⟨fun place => (around (shown s) place).map (!·), fun place => !hasLater (shown s) place,
      fun row _ => ?_, ?_⟩, fun width => ?_, withoutClosing_linesFrom 0 (shown s),
    fun place mem => opening_of_mem_linesFrom 0 (shown s) mem,
    fun place item mem opens => enclosed_linesFrom 0 (shown s) mem opens⟩
  · rw [List.length_map, length_around, depth]
  · rw [tree_eq_rows]
    refine congrArg _ (List.flatMap_congr fun row _ => ?_)
    rw [treeRow, rowAfter, List.flatMap_map, List.nil_append]
  · rw [listing_eq_lines]
    refine List.flatMap_congr fun line _ => ?_
    rw [Line.fragments, listingLine, Nat.zero_add]

end ConstantDump.Outline
