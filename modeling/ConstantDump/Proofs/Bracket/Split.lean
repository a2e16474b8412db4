import ConstantDump.Bracket

/-!
Splitting a text that was put together from pieces.

* `next?_eq_some_iff`: what the scan can do with a character;
* `join_piecesFrom`: the pieces, joined with the separator, are the text again;
* `piecesFrom_append`: a text that is one piece stays the first piece when a separator
  and more text follow it;
* `pieces_join`: texts that are one piece each are the pieces of their join;
* `isSome_piecesFrom`: what has pieces is what closes all that is open;
* `count_paren_of_after?`: outside quotes, a scan that gets through a text has met no
  more closing parentheses than were open or opened.
-/

namespace ConstantDump

namespace Bracket

theorem closer?_of_isCloser {c : Char} (h : isCloser c = true) : closer? c = none := by
  simp only [isCloser, Bool.or_eq_true, decide_eq_true_eq] at h
  rcases h with ((rfl | rfl) | rfl) | rfl <;> rfl

theorem not_bracket_of_isQuote {c : Char} (h : isQuote c = true) :
    closer? c = none ∧ isCloser c = false := by
  rcases isQuote_iff.1 h with rfl | rfl <;> decide

/-- What the scan can do with a character. -/
inductive Step : State → Char → State → Prop
  | opens (closers : List Char) {c closer : Char} (opening : closer? c = some closer) :
    Step (.plain closers) c (.plain (closer :: closers))
  | closes (closers : List Char) {c : Char} (closing : isCloser c = true) :
    Step (.plain (c :: closers)) c (.plain closers)
  | quotes (closers : List Char) {c : Char} (quote : isQuote c = true) :
    Step (.plain closers) c (.quoted c closers)
  | passes (closers : List Char) {c : Char} (plain : isPlain c = true) :
    Step (.plain closers) c (.plain closers)
  | escapes (quote : Char) (closers : List Char) :
    Step (.quoted quote closers) '\\' (.escaped quote closers)
  | ends {quote : Char} (closers : List Char) (visible : quote ≠ '\\') :
    Step (.quoted quote closers) quote (.plain closers)
  | stays {quote c : Char} (closers : List Char) (visible : c ≠ '\\') (other : c ≠ quote) :
    Step (.quoted quote closers) c (.quoted quote closers)
  | hides (quote c : Char) (closers : List Char) :
    Step (.escaped quote closers) c (.quoted quote closers)

theorem next?_eq_some_iff {s s' : State} {c : Char} : s.next? c = some s' ↔ Step s c s' := by
  constructor
  · intro h
    cases s with
    | plain closers =>
      simp only [State.next?] at h
      split at h
      · rename_i opening
        cases h
        exact .opens closers opening
      rename_i none_opened
      split at h
      · rename_i closing
        split at h
        · rename_i head
          cases h
          obtain ⟨rest, rfl⟩ := List.head?_eq_some_iff.1 head
          exact .closes rest closing
        · cases h
      rename_i none_closed
      split at h
      · rename_i quote
        cases h
        exact .quotes closers quote
      · rename_i no_quote
        cases h
        exact .passes closers
          (isPlain_iff.2 ⟨none_opened, by simpa using none_closed, by simpa using no_quote⟩)
    | quoted quote closers =>
      simp only [State.next?] at h
      split at h
      · rename_i backslash
        cases h
        exact backslash ▸ .escapes quote closers
      rename_i visible
      split at h
      · rename_i same
        cases h
        exact same ▸ .ends closers (same ▸ visible)
      · rename_i other
        cases h
        exact .stays closers visible other
    | escaped quote closers =>
      cases h
      exact .hides quote c closers
  · intro h
    cases h with
    | opens closers opening => simp [State.next?, opening]
    | closes closers closing => simp [State.next?, closer?_of_isCloser closing, closing]
    | quotes closers quote => simp [State.next?, not_bracket_of_isQuote quote, quote]
    | passes closers plain =>
      obtain ⟨none_opened, none_closed, no_quote⟩ := isPlain_iff.1 plain
      simp [State.next?, none_opened, none_closed, no_quote]
    | escapes quote closers => rfl
    | ends closers visible => simp [State.next?, visible]
    | stays closers visible other => simp [State.next?, visible, other]
    | hides quote c closers => rfl

theorem next?_start_of_isPlain {c : Char} (h : isPlain c = true) :
    State.start.next? c = some .start :=
  next?_eq_some_iff.2 (.passes [] h)

theorem separates_self {separator : Char} (h : isPlain separator = true) :
    separates separator .start separator = true :=
  separates_iff.2 ⟨rfl, rfl, h⟩

/-- Nothing separates where something is open. -/
theorem separates_of_ne_start {separator c : Char} {s : State} (inside : s ≠ .start) :
    separates separator s c = false := by
  simp [separates, inside]

/-- The characters that do mean something to the scan. -/
def marks : List Char := ['(', '[', '{', '<', ')', ']', '}', '>', '"', '\'']

theorem mem_marks {c : Char} (h : isPlain c = false) : c ∈ marks := by
  refine Decidable.byContradiction fun other => ?_
  simp only [marks, List.mem_cons, List.not_mem_nil, or_false, not_or] at other
  have opens : closer? c = none := by
    unfold closer?
    split <;> simp_all
  have plain : isPlain c = true :=
    isPlain_iff.2 ⟨opens, by simp [isCloser, other], by simp [isQuote, other]⟩
  rw [h] at plain
  cases plain

/-- A character of a class that no mark belongs to. -/
theorem isPlain_of_class {p : Char → Bool} (apart : marks.any p = false) {c : Char}
    (h : p c = true) : isPlain c = true := by
  cases plain : isPlain c with
  | true => rfl
  | false => exact absurd h (List.any_eq_false.1 apart c (mem_marks plain))

theorem isPlain_of_isBlank {c : Char} (h : Text.isBlank c = true) : isPlain c = true :=
  isPlain_of_class (by decide) h

/-! ## Pieces and the text they come from -/

theorem piecesFrom_cut {separator : Char} (hs : isPlain separator = true) (t : Text) :
    piecesFrom separator .start (separator :: t) =
      (piecesFrom separator .start t).map ([] :: ·) := by
  rw [piecesFrom, separates_self hs]
  rfl

theorem piecesFrom_step {separator c : Char} {s s' : State}
    (stays : separates separator s c = false) (step : s.next? c = some s') (t : Text) :
    piecesFrom separator s (c :: t) =
      (piecesFrom separator s' t).map (·.modifyHead (c :: ·)) := by
  rw [piecesFrom, stays, step]
  rfl

/-- What goes on with the piece at hand goes on with it behind one more character. -/
theorem piecesFrom_step_append {separator c : Char} {s s' : State}
    (stays : separates separator s c = false) (step : s.next? c = some s') {t u : Text}
    {rest : Option (List Text)}
    (h : piecesFrom separator s' t = rest.map (·.modifyHead (u ++ ·))) :
    piecesFrom separator s (c :: t) = rest.map (·.modifyHead (c :: u ++ ·)) := by
  rw [piecesFrom_step stays step, h, Option.map_map]
  congr 1
  funext ps
  cases ps <;> rfl

/-- Joining undoes splitting into pieces. -/
theorem join_piecesFrom {separator : Char} {s : State} {t : Text} {ps : List Text}
    (h : piecesFrom separator s t = some ps) : Text.join [separator] ps = t := by
  induction t generalizing s ps with
  | nil =>
    rw [(piecesFrom_nil_iff.1 h).2]
    rfl
  | cons c t ih =>
    obtain ⟨-, rfl, qs, hq, rfl⟩ | ⟨s', q, qs, -, -, hq, rfl⟩ := piecesFrom_cons_cases h
    · obtain ⟨q, rest, rfl⟩ := List.exists_cons_of_ne_nil (piecesFrom_ne_nil hq)
      simp [Text.join, ih hq]
    · have rest := ih hq
      cases qs <;> simpa [Text.join] using rest

/-- A text that is one piece is that piece. -/
theorem eq_of_piecesFrom_singleton {separator : Char} {s : State} {t p : Text}
    (h : piecesFrom separator s t = some [p]) : p = t := by
  simpa [Text.join] using join_piecesFrom h

theorem modifyHead_nil_append :
    (fun ps : List Text => ps.modifyHead ([] ++ ·)) = id := by
  funext ps
  cases ps <;> rfl

/-- Behind a text that is one piece, that piece goes on. -/
theorem piecesFrom_piece {separator : Char} {s : State} {piece : Text}
    (h : piecesFrom separator s piece = some [piece]) (rest : Text) :
    piecesFrom separator s (piece ++ rest) =
      (piecesFrom separator .start rest).map (·.modifyHead (piece ++ ·)) := by
  induction piece generalizing s with
  | nil =>
    rw [(piecesFrom_nil_iff.1 h).1, List.nil_append, modifyHead_nil_append, Option.map_id, id]
  | cons c piece ih =>
    obtain ⟨-, -, qs, -, same⟩ | ⟨s', q, qs, stays, step, hq, same⟩ := piecesFrom_cons_cases h
    · cases same
    · cases same
      exact piecesFrom_step_append stays step (ih hq)

/-- One piece ends where a separator follows it. -/
theorem piecesFrom_append {separator : Char} (hs : isPlain separator = true) {s : State}
    {piece : Text} (h : piecesFrom separator s piece = some [piece]) (rest : Text) :
    piecesFrom separator s (piece ++ separator :: rest) =
      (piecesFrom separator .start rest).map (piece :: ·) := by
  rw [piecesFrom_piece h, piecesFrom_cut hs, Option.map_map]
  congr 1
  funext ps
  simp

/-- Plain characters other than the separator belong to the first piece. -/
theorem piecesFrom_plain {separator : Char} {u : Text}
    (h : ∀ c ∈ u, isPlain c = true ∧ c ≠ separator) (t : Text) :
    piecesFrom separator .start (u ++ t) =
      (piecesFrom separator .start t).map (·.modifyHead (u ++ ·)) := by
  induction u with
  | nil =>
    rw [List.nil_append, modifyHead_nil_append, Option.map_id, id]
  | cons c u ih =>
    obtain ⟨⟨plain, other⟩, rest⟩ := List.forall_mem_cons.1 h
    have stays : separates separator .start c = false := by simp [separates, other]
    exact piecesFrom_step_append stays (next?_start_of_isPlain plain) (ih rest)

/-- Blanks in front belong to the first piece. -/
theorem piecesFrom_blanks {separator : Char} (hs : Text.isBlank separator = false)
    {blanks : Text} (h : blanks.all Text.isBlank) (t : Text) :
    piecesFrom separator .start (blanks ++ t) =
      (piecesFrom separator .start t).map (·.modifyHead (blanks ++ ·)) := by
  refine piecesFrom_plain (fun c hc => ?_) t
  have blank : Text.isBlank c = true := List.all_eq_true.1 h c hc
  refine ⟨isPlain_of_isBlank blank, ?_⟩
  rintro rfl
  rw [hs] at blank
  cases blank

/-! ## Splitting a join -/

/-- What it means that a text is one piece: it is no blank, nothing separates in it, and
no blank is at its ends. -/
theorem split_eq_singleton_iff {separator : Char} {t : Text} :
    split separator t = some [t] ↔
      Text.isAllBlank t = false ∧ pieces separator t = some [t] ∧ Text.trim t = t := by
  unfold split
  constructor
  · intro h
    split at h
    · simp at h
    · rename_i hb
      obtain ⟨qs, hq, hm⟩ := Option.map_eq_some_iff.1 h
      obtain ⟨q, rfl, trimmed⟩ := List.map_eq_singleton_iff.1 hm
      obtain rfl := eq_of_piecesFrom_singleton hq
      exact ⟨by simpa using hb, hq, trimmed⟩
  · rintro ⟨hb, hp, ht⟩
    simp [hb, hp, ht]

theorem pieces_join {separator : Char} (hs : isPlain separator = true) {first : Text}
    {others : List Text} (h : ∀ t ∈ first :: others, pieces separator t = some [t]) :
    pieces separator (Text.join [separator] (first :: others)) = some (first :: others) := by
  induction others generalizing first with
  | nil => simpa [Text.join] using h
  | cons second others ih =>
    have first_piece : pieces separator first = some [first] := h first (by simp)
    have rest := ih fun t ht => h t (List.mem_cons_of_mem _ ht)
    unfold pieces at *
    simp only [Text.join, List.append_assoc, List.singleton_append]
    rw [piecesFrom_append hs first_piece, rest]
    rfl

/-! ## The scan as a run of states -/

def after? (s : State) (t : Text) : Option State := t.foldlM State.next? s

theorem after?_cons (s : State) (c : Char) (t : Text) :
    after? s (c :: t) = (s.next? c).bind (after? · t) := rfl

theorem after?_cons_eq_some_iff {s s' : State} {c : Char} {t : Text} :
    after? s (c :: t) = some s' ↔ ∃ s₁, s.next? c = some s₁ ∧ after? s₁ t = some s' :=
  Option.bind_eq_some_iff

theorem after?_of_isPlain {t : Text} (h : ∀ c ∈ t, isPlain c = true) :
    after? .start t = some .start := by
  induction t with
  | nil => rfl
  | cons c t ih =>
    obtain ⟨here, rest⟩ := List.forall_mem_cons.1 h
    exact after?_cons_eq_some_iff.2 ⟨_, next?_start_of_isPlain here, ih rest⟩

theorem closes_iff_after? {s : State} {t : Text} :
    closes s t = true ↔ after? s t = some .start := by
  induction t generalizing s with
  | nil => simp [closes, after?]
  | cons c t ih =>
    rw [closes, after?_cons]
    cases s.next? c with
    | none => simp
    | some s' => exact ih

/-- A text has pieces when it closes all that is open, whatever the separator. -/
theorem isSome_piecesFrom (separator : Char) (s : State) (t : Text) :
    (piecesFrom separator s t).isSome = closes s t := by
  induction t generalizing s with
  | nil =>
    unfold piecesFrom closes
    split <;> simp_all
  | cons c t ih =>
    unfold piecesFrom closes
    split
    · rename_i cut
      obtain ⟨rfl, -, plain⟩ := separates_iff.1 cut
      rw [next?_start_of_isPlain plain, Option.isSome_map, ih]
    · cases s.next? c with
      | none => rfl
      | some s' => rw [Option.isSome_map, ih]

/-- A text that has pieces brings the scan back outside of everything. -/
theorem after?_of_piecesFrom {separator : Char} {s : State} {t : Text} {ps : List Text}
    (h : piecesFrom separator s t = some ps) : after? s t = some .start := by
  rw [← closes_iff_after?, ← isSome_piecesFrom separator, h]
  rfl

theorem after?_append (s : State) (t u : Text) :
    after? s (t ++ u) = (after? s t).bind (after? · u) := by
  simp [after?, List.foldlM_append]

/-- What one character outside quotes does to the parentheses that are still to be
closed. -/
theorem count_paren_of_next? {c : Char} {closers : List Char} {s : State}
    (hq : isQuote c = false) (h : (State.plain closers).next? c = some s) :
    ∃ closers', s = .plain closers' ∧
      closers'.count ')' + [c].count ')' = closers.count ')' + [c].count '(' := by
  cases next?_eq_some_iff.1 h with
  | opens _ opening =>
    refine ⟨_, rfl, ?_⟩
    unfold closer? at opening
    split at opening <;> cases opening <;> simp
  | closes rest closing =>
    have no_opening : c ≠ '(' := by
      rintro rfl
      cases closing
    refine ⟨rest, rfl, ?_⟩
    simp [List.count_cons, no_opening]
  | quotes _ quote =>
    rw [hq] at quote
    cases quote
  | passes _ plain =>
    have no_opening : c ≠ '(' := by
      rintro rfl
      cases plain
    have no_closing : c ≠ ')' := by
      rintro rfl
      cases plain
    refine ⟨closers, rfl, ?_⟩
    simp [no_opening, no_closing]

/-- Outside quotes, closing parentheses need open ones. -/
theorem count_paren_of_after? {t : Text} {closers : List Char} {s : State}
    (hq : ∀ c ∈ t, isQuote c = false) (h : after? (.plain closers) t = some s) :
    ∃ closers', s = .plain closers' ∧
      closers'.count ')' + t.count ')' = closers.count ')' + t.count '(' := by
  induction t generalizing closers with
  | nil =>
    cases h
    exact ⟨closers, rfl, rfl⟩
  | cons c t ih =>
    obtain ⟨s₁, hn, hrest⟩ := after?_cons_eq_some_iff.1 h
    obtain ⟨closers₁, rfl, h₁⟩ := count_paren_of_next? (hq c (by simp)) hn
    obtain ⟨closers₂, rfl, h₂⟩ := ih (fun d hd => hq d (List.mem_cons_of_mem _ hd)) hrest
    refine ⟨closers₂, rfl, ?_⟩
    have split (d : Char) : (c :: t).count d = [c].count d + t.count d := by
      rw [← List.count_append]
      rfl
    rw [split ')', split '(']
    omega

end Bracket

end ConstantDump
