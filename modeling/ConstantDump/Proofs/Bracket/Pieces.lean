import ConstantDump.Proofs.Bracket.Spaced
import Mathlib.Data.List.TakeWhile

/-!
The pieces of a text, and the texts that are made of pieces. A piece is trimmed and balanced, and
in it no separator stands outside brackets and quotes.

* `length_piecesFrom`: there is one piece more than there are such separators;
* `piecesFrom_of_mem`: each piece is one piece, taken alone;
* `pieces_trim`: so it is without the blanks at its ends;
* `split_pieces`: a text splits into the pieces from which it is joined, with blanks around them,
  and what is joined from pieces splits into these.
-/

namespace ConstantDump.Bracket

variable {separator : Char}

/-! ## Separators outside brackets and quotes -/

/-- The places of a text where the separator stands and a scan that starts from `s` is outside
brackets and quotes. -/
def placesFrom (separator : Char) (s : State) (t : Text) : List Nat :=
  (List.range t.length).filter fun place =>
    t[place]? = some separator ∧ after? s (t.take place) = some .start

def places (separator : Char) (t : Text) : List Nat := placesFrom separator .start t

theorem placesFrom_cons (s : State) (c : Char) (t : Text) :
    placesFrom separator s (c :: t) =
      (if c = separator ∧ s = .start then [0] else []) ++
        ((s.next? c).elim [] fun s' => (placesFrom separator s' t).map (· + 1)) := by
  have later : (List.range t.length).filter (fun place =>
      decide ((c :: t)[place + 1]? = some separator ∧
        after? s ((c :: t).take (place + 1)) = some .start)) =
      (s.next? c).elim [] (placesFrom separator · t) := by
    cases next : s.next? c with
    | none => simp [after?_cons, next]
    | some s' => simp [placesFrom, after?_cons, next]
  have here : ((c :: t)[0]? = some separator ∧ after? s ((c :: t).take 0) = some .start) ↔
      c = separator ∧ s = .start := by simp [after?]
  rw [placesFrom, List.length_cons, List.range_succ_eq_map, List.filter_cons, List.filter_map]
  simp only [here, decide_eq_true_eq, Function.comp_def, later]
  cases s.next? c <;> split <;> simp

/-- A text has one piece more than places to separate it. -/
theorem length_piecesFrom (hs : isPlain separator = true) {s : State} {t : Text}
    {ps : List Text} (h : piecesFrom separator s t = some ps) :
    ps.length = (placesFrom separator s t).length + 1 := by
  induction t generalizing s ps with
  | nil =>
    rw [(piecesFrom_nil_iff.1 h).2]
    rfl
  | cons c t ih =>
    obtain ⟨rfl, rfl, qs, hq, rfl⟩ | ⟨s', q, qs, stays, step, hq, rfl⟩ := piecesFrom_cons_cases h
    · rw [placesFrom_cons, next?_start_of_isPlain hs, List.length_cons, ih hq]
      simp [Nat.add_comm]
    · have elsewhere : ¬ (c = separator ∧ s = .start) := by
        rintro ⟨rfl, rfl⟩
        rw [separates_self hs] at stays
        cases stays
      have counted := ih hq
      rw [List.length_cons] at counted ⊢
      rw [placesFrom_cons, step, if_neg elsewhere, counted]
      simp

/-- What it means to be one piece, as far as the characters between the ends go. -/
theorem pieces_eq_singleton_iff (hs : isPlain separator = true) {t : Text} :
    pieces separator t = some [t] ↔ isBalanced t = true ∧ places separator t = [] := by
  have balanced : (pieces separator t).isSome = isBalanced t := isSome_piecesFrom ..
  constructor
  · intro h
    have counted := length_piecesFrom hs h
    have nowhere : placesFrom separator .start t = [] := by simpa using counted.symm
    exact ⟨by rw [← balanced, h]; rfl, nowhere⟩
  · rintro ⟨closed, nowhere⟩
    obtain ⟨ps, h⟩ := Option.isSome_iff_exists.1 (balanced.trans closed)
    have counted := length_piecesFrom hs h
    rw [← places, nowhere] at counted
    obtain ⟨p, rfl⟩ := List.length_eq_one_iff.1 counted
    rw [h, eq_of_piecesFrom_singleton h]

/-! ## Pieces alone -/

/-- Each piece is one piece, taken alone; the first one goes on with what was open. -/
theorem piecesFrom_of_mem {s : State} {t first : Text} {others : List Text}
    (h : piecesFrom separator s t = some (first :: others)) :
    piecesFrom separator s first = some [first] ∧
      ∀ p ∈ others, pieces separator p = some [p] := by
  induction t generalizing s first others with
  | nil =>
    obtain ⟨rfl, same⟩ := piecesFrom_nil_iff.1 h
    cases same
    exact ⟨h, by simp⟩
  | cons c t ih =>
    obtain ⟨rfl, -, qs, hq, same⟩ | ⟨s', q, qs, stays, step, hq, same⟩ := piecesFrom_cons_cases h
    · obtain ⟨rfl, rfl⟩ := List.cons.inj same
      obtain ⟨q, rest, rfl⟩ := List.exists_cons_of_ne_nil (piecesFrom_ne_nil hq)
      exact ⟨piecesFrom_nil_iff.2 ⟨rfl, rfl⟩, List.forall_mem_cons.2 (ih hq)⟩
    · obtain ⟨rfl, rfl⟩ := List.cons.inj same
      obtain ⟨begins, alone⟩ := ih hq
      refine ⟨?_, alone⟩
      rw [piecesFrom_step stays step, begins]
      rfl

/-- What is open between quotes was opened by a quote, so that no blank closes it. -/
def State.WellQuoted : State → Prop
  | .plain _ => True
  | .quoted quote _ => isQuote quote = true
  | .escaped quote _ => isQuote quote = true

theorem State.WellQuoted.next? {s s' : State} {c : Char} (h : s.WellQuoted)
    (next : s.next? c = some s') : s'.WellQuoted := by
  cases next?_eq_some_iff.1 next with
  | opens | closes | passes | ends => trivial
  | quotes _ quote => exact quote
  | escapes | stays | hides => exact h

theorem State.WellQuoted.after? {s s' : State} {t : Text} (h : s.WellQuoted)
    (run : Bracket.after? s t = some s') : s'.WellQuoted := by
  induction t generalizing s with
  | nil =>
    cases run
    exact h
  | cons c t ih =>
    obtain ⟨s₁, next, rest⟩ := after?_cons_eq_some_iff.1 run
    exact ih (h.next? next) rest

/-- A blank brings the scan nowhere. -/
theorem eq_start_of_blanks {s : State} {blanks : Text} (h : s.WellQuoted)
    (blank : blanks.all Text.isBlank = true) (run : after? s blanks = some .start) :
    s = .start := by
  induction blanks generalizing s with
  | nil => exact Option.some.inj run
  | cons c blanks ih =>
    obtain ⟨s₁, next, rest⟩ := after?_cons_eq_some_iff.1 run
    simp only [List.all_cons, Bool.and_eq_true] at blank
    obtain rfl := ih (h.next? next) blank.2 rest
    obtain ⟨-, no_closing, no_quote⟩ := isPlain_iff.1 (isPlain_of_isBlank blank.1)
    cases next?_eq_some_iff.1 next with
    | closes _ closing =>
      rw [no_closing] at closing
      cases closing
    | passes => rfl
    | ends =>
      rw [show isQuote c = true from h] at no_quote
      cases no_quote

/-- Blanks at the end close nothing. -/
theorem isBalanced_of_append {t blanks : Text} (blank : blanks.all Text.isBlank = true)
    (h : isBalanced (t ++ blanks) = true) : isBalanced t = true := by
  have run : after? .start (t ++ blanks) = some .start := closes_iff_after?.1 h
  rw [after?_append] at run
  obtain ⟨s, before, behind⟩ := Option.bind_eq_some_iff.1 run
  have quoted : s.WellQuoted := State.WellQuoted.after? (s := .start) trivial before
  obtain rfl := eq_start_of_blanks quoted blank behind
  exact closes_iff_after?.2 before

theorem places_of_append {t u : Text} (h : places separator (t ++ u) = []) :
    places separator t = [] := by
  simp only [places, placesFrom, List.filter_eq_nil_iff, List.mem_range, decide_eq_true_eq] at h ⊢
  intro place inside here
  refine h place (by simp; omega) ?_
  rwa [List.getElem?_append_left inside, List.take_append_of_le_length (Nat.le_of_lt inside)]

def Spaced.ofText (t : Text) : Spaced where
  before := t.takeWhile Text.isBlank
  text := Text.trim t
  after := ((Text.trimStart t).reverse.takeWhile Text.isBlank).reverse
  blank_before := List.all_takeWhile
  blank_after := by rw [List.all_reverse]; exact List.all_takeWhile

theorem Spaced.written_ofText (t : Text) : (Spaced.ofText t).written = t := by
  have behind : Text.trim t ++ ((Text.trimStart t).reverse.takeWhile Text.isBlank).reverse =
      Text.trimStart t := by
    rw [Text.trim, Text.trimEnd, ← List.reverse_append, List.takeWhile_append_dropWhile,
      List.reverse_reverse]
  rw [written, ofText, behind]
  exact List.takeWhile_append_dropWhile

/-- One piece stays one piece without the blanks at its ends. -/
theorem pieces_trim (hs : isPlain separator = true) (hn : Text.isBlank separator = false)
    {t : Text} (h : pieces separator t = some [t]) :
    pieces separator (Text.trim t) = some [Text.trim t] := by
  have whole := Spaced.written_ofText t
  rw [← whole, pieces, Spaced.written, piecesFrom_blanks hn (Spaced.ofText t).blank_before] at h
  obtain ⟨ps, behind, first⟩ := Option.map_eq_some_iff.1 h
  obtain ⟨p, rfl⟩ : ∃ p, ps = [p] := by
    rcases ps with _ | ⟨p, _ | ⟨_, _⟩⟩
    · simp at first
    · exact ⟨p, rfl⟩
    · simp at first
  obtain rfl := eq_of_piecesFrom_singleton behind
  obtain ⟨closed, nowhere⟩ := (pieces_eq_singleton_iff hs).1 behind
  exact (pieces_eq_singleton_iff hs).2
    ⟨isBalanced_of_append (Spaced.ofText t).blank_after closed, places_of_append nowhere⟩

/-! ## Splitting and joining -/

/-- What stands between two separators when the blanks beside them are left out. -/
structure IsPiece (separator : Char) (p : Text) : Prop where
  trimmed : Text.trim p = p
  /-- Its brackets and quotes are closed in it. -/
  balanced : isBalanced p = true
  /-- In it, separators stand between brackets or quotes only. -/
  unseparated : places separator p = []

theorem isPiece_iff (hs : isPlain separator = true) {p : Text} :
    IsPiece separator p ↔ Text.trim p = p ∧ pieces separator p = some [p] := by
  rw [pieces_eq_singleton_iff hs]
  exact ⟨fun h => ⟨h.trimmed, h.balanced, h.unseparated⟩, fun ⟨trimmed, closed, nowhere⟩ =>
    ⟨trimmed, closed, nowhere⟩⟩

instance (separator : Char) (p : Text) : Decidable (IsPiece separator p) :=
  decidable_of_iff (Text.trim p = p ∧ isBalanced p = true ∧ places separator p = [])
    ⟨fun ⟨trimmed, closed, nowhere⟩ => ⟨trimmed, closed, nowhere⟩,
      fun h => ⟨h.trimmed, h.balanced, h.unseparated⟩⟩

theorem split_eq_none_iff (hn : Text.isBlank separator = false) {t : Text} :
    split separator t = none ↔ Text.isAllBlank t = false ∧ isBalanced t = false := by
  have splits := isSome_split hn t
  constructor
  · intro h
    rw [h] at splits
    refine ⟨Bool.eq_false_iff.2 fun blank => ?_, splits.symm⟩
    rw [split, if_pos blank] at h
    cases h
  · rintro ⟨-, open_⟩
    rw [open_] at splits
    exact Option.not_isSome_iff_eq_none.1 (by simp [splits])

/-- A text that is not blank splits into pieces, and with blanks around them they make it up. -/
theorem pieces_of_split (hs : isPlain separator = true) (hn : Text.isBlank separator = false)
    {t : Text} {ps : List Text} (visible : Text.isAllBlank t = false)
    (h : split separator t = some ps) :
    (∀ p ∈ ps, IsPiece separator p) ∧ ps.length = (places separator t).length + 1 ∧
      ∃ elements : List Spaced, elements.map Spaced.text = ps ∧
        t = Text.join [separator] (elements.map Spaced.written) := by
  rw [split, visible] at h
  obtain ⟨raw, cut, rfl⟩ := Option.map_eq_some_iff.1 h
  have alone : ∀ p ∈ raw, pieces separator p = some [p] := by
    obtain ⟨first, others, rfl⟩ := List.exists_cons_of_ne_nil (piecesFrom_ne_nil cut)
    exact List.forall_mem_cons.2 (piecesFrom_of_mem cut)
  refine ⟨?_, ?_, raw.map Spaced.ofText, ?_, ?_⟩
  · intro p mem
    obtain ⟨q, inside, rfl⟩ := List.mem_map.1 mem
    exact (isPiece_iff hs).2 ⟨Text.trim_trim q, pieces_trim hs hn (alone q inside)⟩
  · rw [List.length_map]
    exact length_piecesFrom hs cut
  · rw [List.map_map]
    rfl
  · have same : (raw.map Spaced.ofText).map Spaced.written = raw := by
      simp [Function.comp_def, Spaced.written_ofText]
    rw [same, join_piecesFrom cut]

/-- Pieces are elements of what is joined from them, a single one unless it is empty. -/
theorem split_join_pieces (hs : isPlain separator = true) (hn : Text.isBlank separator = false)
    {elements : List Spaced} (some_element : elements ≠ [])
    (h : ∀ e ∈ elements, IsPiece separator e.text)
    (visible : Text.isAllBlank (Text.join [separator] (elements.map Spaced.text)) = false) :
    split separator (Text.join [separator] (elements.map Spaced.written)) =
      some (elements.map Spaced.text) := by
  refine split_join_spaced hs hn some_element fun e mem => ?_
  obtain ⟨trimmed, alone⟩ := (isPiece_iff hs).1 (h e mem)
  cases blank : Text.isAllBlank e.text with
  | false => exact .inl (split_eq_singleton_iff.2 ⟨blank, alone, trimmed⟩)
  | true =>
    have nothing : e.text = [] := by rw [← trimmed, Text.trim_of_isAllBlank blank]
    refine .inr ⟨nothing, ?_⟩
    match elements, some_element with
    | [other], _ =>
      obtain rfl := List.mem_singleton.1 mem
      rw [List.map_singleton, Text.join, nothing] at visible
      cases visible
    | _ :: _ :: _, _ => simp

/-- With a separator that is no bracket, no quote and no blank: a text does not split just when it
is not blank and not balanced. When a text that is not blank splits, each part is a piece, which
is trimmed, balanced and without a separator outside brackets and quotes; there is one part more
than there are such separators in the text; and the text is the join of these parts with blanks
around them. Pieces, in turn, are what their join splits into, whatever blanks stand around them,
unless there is nothing to be seen in it. -/
theorem split_pieces (hs : isPlain separator = true) (hn : Text.isBlank separator = false) :
    (∀ t, split separator t = none ↔ Text.isAllBlank t = false ∧ isBalanced t = false) ∧
    (∀ t ps, Text.isAllBlank t = false → split separator t = some ps →
      (∀ p ∈ ps, IsPiece separator p) ∧ ps.length = (places separator t).length + 1 ∧
        ∃ elements : List Spaced, elements.map Spaced.text = ps ∧
          t = Text.join [separator] (elements.map Spaced.written)) ∧
    ∀ elements : List Spaced, elements ≠ [] → (∀ e ∈ elements, IsPiece separator e.text) →
      Text.isAllBlank (Text.join [separator] (elements.map Spaced.text)) = false →
        split separator (Text.join [separator] (elements.map Spaced.written)) =
          some (elements.map Spaced.text) :=
  ⟨fun _ => split_eq_none_iff hn, fun _ _ visible h => pieces_of_split hs hn visible h,
    fun _ some_element h visible => split_join_pieces hs hn some_element h visible⟩

/-- Arguments with brackets, separators and a hidden quote between quotes, one of them empty. -/
def arguments : Text := " f(1, '(') ,\t\"a\\\", [\" ,, <{2, 3}>".toList

theorem split_pieces_arguments :
    isPlain ',' = true ∧ Text.isBlank ',' = false ∧ Text.isAllBlank arguments = false ∧
      places ',' arguments = [11, 22, 23] ∧
      split ',' arguments = some ["f(1, '(')".toList, "\"a\\\", [\"".toList, [],
        "<{2, 3}>".toList] ∧
      (∀ p ∈ ["f(1, '(')".toList, "\"a\\\", [\"".toList, [], "<{2, 3}>".toList],
        IsPiece ',' p) ∧
      split ',' "\t[1,2]\n,, x".toList = some ["[1,2]".toList, [], "x".toList] := by
  have plain : isPlain ',' = true := by decide
  have solid : Text.isBlank ',' = false := by decide
  have visible : Text.isAllBlank arguments = false := by decide +kernel
  have parts : split ',' arguments = some ["f(1, '(')".toList, "\"a\\\", [\"".toList, [],
      "<{2, 3}>".toList] := by decide +kernel
  obtain ⟨-, cut, join⟩ := split_pieces plain solid
  refine ⟨plain, solid, visible, by decide +kernel, parts, (cut _ _ visible parts).1, ?_⟩
  exact join [⟨['\t'], "[1,2]".toList, ['\n'], by decide, by decide⟩, ⟨[], [], [], rfl, rfl⟩,
    ⟨[' '], "x".toList, [], by decide, by decide⟩] (List.cons_ne_nil _ _) (by decide +kernel)
    (by decide +kernel)

end ConstantDump.Bracket
