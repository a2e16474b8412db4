import ConstantDump.Proofs.Literal.Parenthesis
import Mathlib.Logic.Relation

/-!
The parenthesis that matches the one at the end of a call. Parentheses are nested when they are
derived from

`N ::= empty | x N | ( N ) N`

where `x` is any other character, and the scan from the right counts how many of them are closed
but not yet opened.

* `parenthesesMatch_iff_nested`: what is nested is what the numbers of parentheses say;
* `eq_of_nested`: one parenthesis at most has nested ones between it and the end;
* `Scan.closes_of_reaches`: wherever the scan comes, what it has read is nested but for as many
  closing parentheses as the counter says, so the counter is never below zero;
* `openingFrom_eq_iff`: the answers of the scan are those of its single steps;
* `call?_eq_some_iff_nested`: where a call splits, and what the counter is on the way.
-/

namespace ConstantDump.Literal

/-! ## Nested parentheses -/

/-- Each opening parenthesis has its closing one; other characters do not matter. -/
inductive Nested : Text → Prop
  | empty : Nested []
  | other {c : Char} {t : Text} (opens : c ≠ '(') (closes : c ≠ ')') (rest : Nested t) :
    Nested (c :: t)
  | enclosed {t u : Text} (inside : Nested t) (rest : Nested u) : Nested ('(' :: (t ++ ')' :: u))

/-- All parentheses have their partners but `depth` closing ones. Before, between and behind those
the text is nested. -/
inductive Closes : Nat → Text → Prop
  | nested {t : Text} (all : Nested t) : Closes 0 t
  | closing {depth : Nat} {t u : Text} (front : Nested t) (rest : Closes depth u) :
    Closes (depth + 1) (t ++ ')' :: u)

namespace Closes

variable {depth : Nat} {t : Text}

theorem cons_close (h : Closes depth t) : Closes (depth + 1) (')' :: t) :=
  .closing .empty h

/-- An opening parenthesis is the partner of the first closing one that has none. -/
theorem cons_open (h : Closes (depth + 1) t) : Closes depth ('(' :: t) := by
  cases h with
  | closing inside rest =>
    cases rest with
    | nested all => exact .nested (.enclosed inside all)
    | @closing _ front later nested rest =>
      have whole := Closes.closing (.enclosed inside nested) rest
      simpa using whole

theorem cons_other {c : Char} (opens : c ≠ '(') (closes : c ≠ ')') (h : Closes depth t) :
    Closes depth (c :: t) := by
  cases h with
  | nested all => exact .nested (.other opens closes all)
  | closing front rest => exact .closing (.other opens closes front) rest

end Closes

theorem Nested.parenthesesMatch {t : Text} (h : Nested t) : ParenthesesMatch t := by
  induction h with
  | empty => exact parenthesesMatch_of_not_mem (by simp) (by simp)
  | @other c t opens closes rest ih =>
    have alone : ParenthesesMatch [c] :=
      parenthesesMatch_of_not_mem (by simpa using opens.symm) (by simpa using closes.symm)
    exact alone.append ih
  | @enclosed t u inside rest ih_inside ih =>
    simpa using ih_inside.enclosed.append ih

/-- No end of the text opens more than it closes: then what it closes beyond that has no partner. -/
theorem closes_of_suffixes {t : Text} (h : ∀ u, u <:+ t → u.count '(' ≤ u.count ')') :
    Closes (t.count ')' - t.count '(') t := by
  induction t with
  | nil => exact .nested .empty
  | cons c t ih =>
    have whole := h (c :: t) List.suffix_rfl
    have later := h t (List.suffix_cons c t)
    have rest := ih fun u inside => h u (inside.trans (List.suffix_cons c t))
    by_cases closes : c = ')'
    · subst closes
      have depth : (')' :: t).count ')' - (')' :: t).count '(' =
          t.count ')' - t.count '(' + 1 := by
        simp
        omega
      exact depth ▸ rest.cons_close
    · by_cases opens : c = '('
      · subst opens
        have depth : t.count ')' - t.count '(' =
            ('(' :: t).count ')' - ('(' :: t).count '(' + 1 := by
          simp at whole ⊢
          omega
        exact (depth ▸ rest).cons_open
      · simpa [opens, closes] using rest.cons_other opens closes

theorem parenthesesMatch_iff_nested {t : Text} : ParenthesesMatch t ↔ Nested t := by
  constructor
  · rintro ⟨counts, suffixes⟩
    have closed := closes_of_suffixes suffixes
    rw [counts, Nat.sub_self] at closed
    cases closed with
    | nested all => exact all
  · exact Nested.parenthesesMatch

theorem Closes.count {depth : Nat} {t : Text} (h : Closes depth t) :
    t.count ')' = t.count '(' + depth := by
  induction h with
  | nested all => exact all.parenthesesMatch.1.symm
  | closing front rest ih =>
    have := front.parenthesesMatch.1
    simp
    omega

/-- Nested parentheses do not end in an opening one with nested ones behind it. -/
theorem Nested.not_suffix {t u : Text} (ht : Nested t) (hu : Nested u) : ¬ '(' :: u <:+ t := by
  intro inside
  have more := ht.parenthesesMatch.2 _ inside
  have counts := hu.parenthesesMatch.1
  simp at more
  omega

/-- One opening parenthesis at most has nested ones between it and the end. -/
theorem eq_of_nested {t t' p p' : Text} (text : t ++ '(' :: p = t' ++ '(' :: p')
    (hp : Nested p) (hp' : Nested p') : t = t' ∧ p = p' := by
  have nothing {w q q' : Text} (nested : Nested q) (nested' : Nested q')
      (between : '(' :: q = w ++ '(' :: q') : w = [] := by
    cases w with
    | nil => rfl
    | cons c w =>
      simp only [List.cons_append, List.cons.injEq] at between
      exact absurd ⟨w, between.2.symm⟩ (nested.not_suffix nested')
  rcases List.append_eq_append_iff.1 text with ⟨w, ht, between⟩ | ⟨w, ht, between⟩
  · obtain rfl := nothing hp hp' between
    simpa [ht] using between
  · obtain rfl := nothing hp' hp between
    simpa [ht] using between.symm

/-! ## The scan -/

/-- A state of the scan from the right: the counter, what has been read and what has not, the
latter in reverse. The counter is an integer, so nothing but the steps keeps it from going below
zero. -/
structure Scan where
  depth : Int
  read : Text
  unread : Text

namespace Scan

/-- One character is read and the scan goes on. -/
inductive Moves : Scan → Scan → Prop
  | close (depth : Int) (read unread : Text) :
    Moves ⟨depth, read, ')' :: unread⟩ ⟨depth + 1, ')' :: read, unread⟩
  | opening {depth : Int} (read unread : Text) (inside : depth ≠ 0) :
    Moves ⟨depth, read, '(' :: unread⟩ ⟨depth - 1, '(' :: read, unread⟩
  | other (depth : Int) {c : Char} (read unread : Text) (opens : c ≠ '(') (closes : c ≠ ')') :
    Moves ⟨depth, read, c :: unread⟩ ⟨depth, c :: read, unread⟩

/-- The scan stops: at the end of the text, or at the parenthesis that it looks for, which must
not be the first character. -/
inductive Answers : Scan → Option (Text × Text) → Prop
  | exhausted (depth : Int) (read : Text) : Answers ⟨depth, read, []⟩ none
  | unnamed (read : Text) : Answers ⟨0, read, ['(']⟩ none
  | found (read : Text) {unread : Text} (named : unread ≠ []) :
    Answers ⟨0, read, '(' :: unread⟩ (some (unread.reverse, read))

abbrev Reaches : Scan → Scan → Prop := Relation.ReflTransGen Moves

def start (body : Text) : Scan := ⟨0, [], body.reverse⟩

def text (s : Scan) : Text := s.unread.reverse ++ s.read

/-- The counter says how many closing parentheses of what has been read have no partner there. -/
def Counts (s : Scan) : Prop := ∃ depth : Nat, s.depth = depth ∧ Closes depth s.read

variable {s s' : Scan} {body : Text} {result : Option (Text × Text)}

theorem counts_start (body : Text) : (start body).Counts :=
  ⟨0, rfl, .nested .empty⟩

theorem Moves.text (move : s.Moves s') : s'.text = s.text := by
  cases move <;> simp [Scan.text]

/-- The guard before the subtraction is what the second case needs. -/
theorem Moves.counts (move : s.Moves s') (counted : s.Counts) : s'.Counts := by
  obtain ⟨depth, counter, closes⟩ := counted
  cases move with
  | close d =>
    obtain rfl : d = depth := counter
    exact ⟨depth + 1, rfl, closes.cons_close⟩
  | @opening d _ _ inside =>
    obtain rfl : d = depth := counter
    cases depth with
    | zero => exact absurd rfl inside
    | succ depth => exact ⟨depth, by simp, closes.cons_open⟩
  | other _ _ _ no_opening no_closing =>
    exact ⟨depth, counter, closes.cons_other no_opening no_closing⟩

theorem Reaches.text (run : s.Reaches s') : s'.text = s.text := by
  induction run with
  | refl => rfl
  | tail _ move ih => exact move.text.trans ih

theorem Reaches.counts (run : s.Reaches s') (counted : s.Counts) : s'.Counts := by
  induction run with
  | refl => exact counted
  | tail _ move ih => exact move.counts ih

/-- Wherever the scan comes, the counter tells what has been read. -/
theorem closes_of_reaches (run : (start body).Reaches s) :
    ∃ depth : Nat, s.depth = depth ∧ Closes depth s.read :=
  run.counts (counts_start body)

theorem depth_of_reaches (run : (start body).Reaches s) :
    0 ≤ s.depth ∧ s.depth = s.read.count ')' - s.read.count '(' := by
  obtain ⟨depth, counter, closes⟩ := closes_of_reaches run
  have := closes.count
  omega

/-! ## The answer of the scan -/

def answer (s : Scan) : Option (Text × Text) := openingFrom s.depth.toNat s.read s.unread

theorem Moves.answer (move : s.Moves s') (counted : s.Counts) : s'.answer = s.answer := by
  obtain ⟨depth, counter, -⟩ := counted
  cases move with
  | close d =>
    obtain rfl : d = depth := counter
    simp [Scan.answer, openingFrom, Int.toNat_natCast_add_one]
  | @opening d _ _ inside =>
    obtain rfl : d = depth := counter
    cases depth with
    | zero => exact absurd rfl inside
    | succ depth => simp [Scan.answer, openingFrom]
  | other _ _ _ no_opening no_closing =>
    simp [Scan.answer, openingFrom, no_opening, no_closing]

theorem Reaches.answer (run : s.Reaches s') (counted : s.Counts) : s'.answer = s.answer := by
  induction run with
  | refl => rfl
  | tail run move ih => exact (move.answer (Reaches.counts run counted)).trans ih

theorem Answers.answer (stop : s.Answers result) : s.answer = result := by
  cases stop with
  | exhausted => rfl
  | unnamed => rfl
  | found read named => simp [Scan.answer, openingFrom, named]

/-- A state moves on or answers. -/
theorem moves_or_answers (s : Scan) : (∃ s', s.Moves s') ∨ ∃ result, s.Answers result := by
  obtain ⟨depth, read, unread⟩ := s
  cases unread with
  | nil => exact .inr ⟨_, .exhausted depth read⟩
  | cons c unread =>
    by_cases closes : c = ')'
    · subst closes
      exact .inl ⟨_, .close depth read unread⟩
    · by_cases opens : c = '('
      · subst opens
        by_cases outside : depth = 0
        · subst outside
          cases unread with
          | nil => exact .inr ⟨_, .unnamed read⟩
          | cons d unread => exact .inr ⟨_, .found read (by simp)⟩
        · exact .inl ⟨_, .opening read unread outside⟩
      · exact .inl ⟨_, .other depth read unread opens closes⟩

theorem Moves.length_unread (move : s.Moves s') : s'.unread.length < s.unread.length := by
  cases move <;> simp

/-- The scan comes to an answer. -/
theorem exists_answers (s : Scan) : ∃ s' result, s.Reaches s' ∧ s'.Answers result := by
  rcases moves_or_answers s with ⟨s₁, move⟩ | ⟨result, stop⟩
  · obtain ⟨s', result, run, stop⟩ := exists_answers s₁
    exact ⟨s', result, .head move run, stop⟩
  · exact ⟨s, result, .refl, stop⟩
termination_by s.unread.length
decreasing_by exact move.length_unread

/-- The answer from a state on is that of its run. -/
theorem answer_eq_iff (counted : s.Counts) :
    s.answer = result ↔ ∃ s', s.Reaches s' ∧ s'.Answers result := by
  constructor
  · rintro rfl
    obtain ⟨s', result, run, stop⟩ := exists_answers s
    have same : result = s.answer := stop.answer.symm.trans (run.answer counted)
    exact ⟨s', run, same ▸ stop⟩
  · rintro ⟨s', run, stop⟩
    exact (run.answer counted).symm.trans stop.answer

end Scan

/-- The answers of the scan are those of its single steps. -/
theorem openingFrom_eq_iff {body : Text} {result : Option (Text × Text)} :
    openingFrom 0 [] body.reverse = result ↔
      ∃ s, (Scan.start body).Reaches s ∧ s.Answers result :=
  Scan.answer_eq_iff (Scan.counts_start body)

/-! ## Calls -/

/-- A text is cut at its last parenthesis and at the one that matches it. -/
structure CallParts (raw typeName parameters : Text) : Prop where
  text : raw = typeName ++ '(' :: parameters ++ [')']
  named : typeName ≠ []
  nested : Nested parameters
  counts : typeName.count '(' = typeName.count ')'

theorem call?_eq_some_iff_parts {raw typeName parameters : Text} :
    call? raw = some (typeName, parameters) ↔ CallParts raw typeName parameters := by
  rw [call?_eq_some_iff, parenthesesMatch_iff_nested]
  constructor
  · rintro ⟨text, named, nested, counts⟩
    exact ⟨text, named, nested, counts⟩
  · rintro ⟨text, named, nested, counts⟩
    exact ⟨text, named, nested, counts⟩

theorem CallParts.unique {raw t t' p p' : Text} (h : CallParts raw t p)
    (h' : CallParts raw t' p') : t = t' ∧ p = p' :=
  eq_of_nested (List.append_cancel_right (h.text.symm.trans h'.text)) h.nested h'.nested

theorem call?_of_counts {body : Text}
    (counts : (body ++ [')']).count '(' = (body ++ [')']).count ')') :
    call? (body ++ [')']) = openingFrom 0 [] body.reverse := by
  have ends : [')'].isSuffixOf? (body ++ [')']) = some body := Text.isSuffixOf?_eq_some_iff.2 rfl
  unfold call?
  rw [ends]
  exact if_pos counts

/-- A text splits into a type name and parameters exactly where its last parenthesis is matched,
with a type name before that and as many opening parentheses there as closing ones. There is no
second place. When the numbers of parentheses are right, the split is the answer of the scan. At
every state on its way the counter is the number of closing parentheses less that of opening ones
among what has been read, and not below zero. -/
theorem call?_eq_some_iff_nested (raw : Text) :
    (∀ typeName parameters,
      call? raw = some (typeName, parameters) ↔ CallParts raw typeName parameters) ∧
    (∀ t p t' p', CallParts raw t p → CallParts raw t' p' → t = t' ∧ p = p') ∧
    ∀ body, raw = body ++ [')'] →
      (raw.count '(' = raw.count ')' → ∀ result,
        call? raw = result ↔ ∃ s, (Scan.start body).Reaches s ∧ s.Answers result) ∧
      ∀ s, (Scan.start body).Reaches s →
        s.text = body ∧ s.depth = s.read.count ')' - s.read.count '(' ∧ 0 ≤ s.depth := by
  refine ⟨fun _ _ => call?_eq_some_iff_parts, fun _ _ _ _ h h' => h.unique h', ?_⟩
  rintro body rfl
  constructor
  · intro counts result
    rw [call?_of_counts counts, openingFrom_eq_iff]
  · intro s run
    obtain ⟨nonneg, counter⟩ := Scan.depth_of_reaches run
    have text : s.text = body := run.text.trans (by simp [Scan.text, Scan.start])
    exact ⟨text, counter, nonneg⟩

/-- There are calls in the type name and among the parameters. -/
theorem call?_eq_some_iff_nested_calls :
    "f(x)(g(y))".toList = "f(x)(g(y)".toList ++ [')'] ∧
      "f(x)(g(y))".toList.count '(' = "f(x)(g(y))".toList.count ')' ∧
      CallParts "f(x)(g(y))".toList "f(x)".toList "g(y)".toList ∧
      (∀ t p, CallParts "f(x)(g(y))".toList t p → t = "f(x)".toList ∧ p = "g(y)".toList) ∧
      (∃ s, (Scan.start "f(x)(g(y)".toList).Reaches s ∧
        s.Answers (some ("f(x)".toList, "g(y)".toList))) ∧
      ∃ s, (Scan.start "f(x)(g(y)".toList).Reaches s ∧ s.read = [')'] ∧ s.depth = 1 ∧
        s.text = "f(x)(g(y)".toList ∧ s.depth = s.read.count ')' - s.read.count '(' := by
  have call : call? "f(x)(g(y))".toList = some ("f(x)".toList, "g(y)".toList) := by decide
  have text : "f(x)(g(y))".toList = "f(x)(g(y)".toList ++ [')'] := by decide
  have counts : "f(x)(g(y))".toList.count '(' = "f(x)(g(y))".toList.count ')' := by decide
  obtain ⟨parts, unique, scan⟩ := call?_eq_some_iff_nested "f(x)(g(y))".toList
  have here := (parts _ _).1 call
  obtain ⟨answers, counter⟩ := scan _ text
  have inside : (Scan.start "f(x)(g(y)".toList).Reaches ⟨1, [')'], "y(g()x(f".toList⟩ :=
    .single (.close 0 [] _)
  obtain ⟨all, depth, -⟩ := counter _ inside
  exact ⟨text, counts, here, fun t p h => unique t p _ _ h here, (answers counts _).1 call,
    _, inside, rfl, rfl, all, depth⟩

end ConstantDump.Literal
