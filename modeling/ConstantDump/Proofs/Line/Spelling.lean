import ConstantDump.Line.Constant
import ConstantDump.Proofs.Text.Trim

/-!
The ways to write a constant: `name = value` and `name:=value`, with or without a comma, and with
blanks around them. The name may have operators in it, and the value anything.

* `separateFrom_passes`: the scan for the sign passes an `=` that is part of an operator, and what
  stands between brackets;
* `constantName_spelled`, `constantValue_spelled`: the colon and the comma are no part of the name
  and the value;
* `constant?_spelled`: whichever way a constant is written, its line has its name and its value.
-/

namespace ConstantDump.Line

/-! ## Names and values -/

def isOpening (c : Char) : Bool := c = '(' || c = '[' || c = '{'

def isClosing (c : Char) : Bool := c = ')' || c = ']' || c = '}'

def openings (t : Text) : Nat := t.countP isOpening

def closings (t : Text) : Nat := t.countP isClosing

/-- As many brackets close as open, and none of them before it is open. -/
structure BracketsMatch (t : Text) : Prop where
  whole : openings t = closings t
  begins : ∀ u, u <+: t → closings u ≤ openings u

/-- Whether an `=` between two texts is part of an operator such as `<=`, `==` or `=(`. -/
def inOperator (before after : Text) : Bool :=
  before.getLast? ≠ some ':' &&
    (before.getLast?.any (· ∈ ['<', '>', '!', '=']) || after.head?.any (· ∈ ['=', '(', '>']))

structure IsConstantName (name : Text) : Prop where
  some_name : name ≠ []
  trimmed : Text.trim name = name
  /-- It begins no directive. -/
  first : name.head? ≠ some '#'
  /-- It leaves the colon of `:=` to the sign. -/
  last : name.getLast? ≠ some ':'
  brackets : BracketsMatch name
  /-- Outside brackets, `=` is part of operators only. -/
  operators : ∀ before after, name = before ++ '=' :: after → openings before = closings before →
    inOperator before after = true

structure IsConstantValue (value : Text) : Prop where
  some_value : value ≠ []
  trimmed : Text.trim value = value
  /-- It leaves the comma behind it to the line. -/
  last : value.getLast? ≠ some ','

theorem bracketsMatch_iff_take {t : Text} :
    BracketsMatch t ↔ openings t = closings t ∧
      ∀ n < t.length, closings (t.take n) ≤ openings (t.take n) := by
  constructor
  · intro h
    exact ⟨h.whole, fun n _ => h.begins _ (List.take_prefix n t)⟩
  · rintro ⟨whole, begins⟩
    refine ⟨whole, fun u inside => ?_⟩
    rw [List.prefix_iff_eq_take.1 inside]
    by_cases shorter : u.length < t.length
    · exact begins _ shorter
    · rw [List.take_of_length_le (Nat.not_lt.1 shorter), whole]

theorem operators_iff_take {name : Text} :
    (∀ before after, name = before ++ '=' :: after → openings before = closings before →
      inOperator before after = true) ↔
    ∀ n < name.length, name[n]? = some '=' → openings (name.take n) = closings (name.take n) →
      inOperator (name.take n) (name.drop (n + 1)) = true := by
  constructor
  · intro h n inside sign
    refine h _ _ ?_
    obtain ⟨_, same⟩ := List.getElem?_eq_some_iff.1 sign
    rw [← same, ← List.drop_eq_getElem_cons inside, List.take_append_drop]
  · rintro h before after rfl outside
    simpa using h before.length (by simp) (by simp) (by simpa using outside)

instance (name : Text) : Decidable (IsConstantName name) :=
  decidable_of_iff (name ≠ [] ∧ Text.trim name = name ∧ name.head? ≠ some '#' ∧
      name.getLast? ≠ some ':' ∧ (openings name = closings name ∧
        ∀ n < name.length, closings (name.take n) ≤ openings (name.take n)) ∧
      ∀ n < name.length, name[n]? = some '=' → openings (name.take n) = closings (name.take n) →
        inOperator (name.take n) (name.drop (n + 1)) = true) <| by
    rw [← bracketsMatch_iff_take, ← operators_iff_take]
    exact ⟨fun ⟨some_name, trimmed, first, last, brackets, operators⟩ =>
      ⟨some_name, trimmed, first, last, brackets, operators⟩, fun h =>
      ⟨h.some_name, h.trimmed, h.first, h.last, h.brackets, h.operators⟩⟩

instance (value : Text) : Decidable (IsConstantValue value) :=
  decidable_of_iff (value ≠ [] ∧ Text.trim value = value ∧ value.getLast? ≠ some ',')
    ⟨fun ⟨some_value, trimmed, last⟩ => ⟨some_value, trimmed, last⟩, fun h =>
      ⟨h.some_value, h.trimmed, h.last⟩⟩

/-! ## The scan -/

theorem isClosing_of_isOpening {c : Char} (h : isOpening c = true) : isClosing c = false := by
  simp only [isOpening, Bool.or_eq_true, decide_eq_true_eq] at h
  rcases h with (rfl | rfl) | rfl <;> rfl

/-- The brackets that are open behind one more character. -/
theorem depth_concat {t : Text} (fits : closings t ≤ openings t) (c : Char) :
    openings (t ++ [c]) - closings (t ++ [c]) =
      if isOpening c then openings t - closings t + 1
      else if isClosing c then openings t - closings t - 1
      else openings t - closings t := by
  simp only [openings, closings, List.countP_append, List.countP_singleton] at fits ⊢
  cases opens : isOpening c with
  | true =>
    rw [isClosing_of_isOpening opens]
    simp only [↓reduceIte, Bool.false_eq_true]
    omega
  | false =>
    cases closes : isClosing c with
    | true =>
      simp only [↓reduceIte, Bool.false_eq_true]
      omega
    | false => rfl

/-- No `=` of an operator separates, whatever follows the name. -/
theorem isSeparating_of_inOperator {before after : Text} (h : inOperator before after = true)
    (rest : Text) : isSeparating before.getLast? (after ++ rest).head? = false := by
  simp only [inOperator, Bool.and_eq_true, Bool.or_eq_true, decide_eq_true_eq,
    Option.any_eq_true] at h
  obtain ⟨no_colon, ⟨c, last, sign⟩ | ⟨c, next, sign⟩⟩ := h
  · simp only [List.mem_cons, List.not_mem_nil, or_false] at sign
    rcases sign with rfl | rfl | rfl | rfl <;> simp [isSeparating, last]
  · have follows : (after ++ rest).head? = some c := by rw [List.head?_append, next]; rfl
    simp only [List.mem_cons, List.not_mem_nil, or_false] at sign
    rcases sign with rfl | rfl | rfl <;> simp [isSeparating, follows, no_colon]

/-- The scan passes a text whose `=` outside brackets are parts of operators. What was read before
it is `done`, with the brackets that are open in it. -/
theorem separateFrom_passes {u : Text} (done rest : Text)
    (begins : ∀ v, v <+: done ++ u → closings v ≤ openings v)
    (operators : ∀ before after, u = before ++ '=' :: after →
      openings (done ++ before) = closings (done ++ before) →
        inOperator (done ++ before) after = true) :
    separateFrom done.reverse (openings done - closings done) (u ++ rest) =
      separateFrom (done ++ u).reverse (openings (done ++ u) - closings (done ++ u)) rest := by
  induction u generalizing done with
  | nil => simp
  | cons c u ih =>
    have shape : done ++ c :: u = done ++ [c] ++ u := by simp
    have reversed : c :: done.reverse = (done ++ [c]).reverse := by simp
    have fits : closings done ≤ openings done := begins done (List.prefix_append ..)
    have later := ih (done ++ [c]) (by rwa [← shape]) fun before after same outside => by
      simpa using operators (c :: before) after (by rw [same]; rfl) (by simpa using outside)
    rw [List.cons_append, separateFrom, shape, ← later, reversed, depth_concat fits]
    split
    · rename_i opens
      rw [if_pos (show isOpening c = true from opens)]
    rename_i no_opening
    rw [if_neg (show ¬ isOpening c = true from no_opening)]
    split
    · rename_i closes
      rw [if_pos (show isClosing c = true from closes)]
    rename_i no_closing
    rw [if_neg (show ¬ isClosing c = true from no_closing)]
    -- What is left are characters that are no brackets, and the `=` of the text among them.
    refine if_neg ?_
    rintro ⟨rfl, outside, separating⟩
    have operator := operators [] u rfl (by simp; omega)
    rw [List.append_nil] at operator
    rw [List.head?_reverse, isSeparating_of_inOperator operator] at separating
    cases separating

/-- The scan passes the whole of a name, and no bracket is open behind it. -/
theorem separateFrom_name {name : Text} (h : IsConstantName name) (rest : Text) :
    separateFrom [] 0 (name ++ rest) = separateFrom name.reverse 0 rest := by
  have passed := separateFrom_passes [] rest h.brackets.begins h.operators
  rw [List.nil_append, h.brackets.whole, Nat.sub_self] at passed
  exact passed

/-- What decides where the value of a constant begins: brackets and `=`. -/
def decides (c : Char) : Bool :=
  c = '(' || c = '[' || c = '{' || c = ')' || c = ']' || c = '}' || c = '='

theorem separateFrom_append {u : Text} (h : ∀ c ∈ u, decides c = false) (before t : Text) :
    separateFrom before 0 (u ++ t) = separateFrom (u.reverse ++ before) 0 t := by
  induction u generalizing before with
  | nil => rfl
  | cons c u ih =>
    have here := h c (by simp)
    simp only [decides, Bool.or_eq_false_iff, decide_eq_false_iff_not] at here
    rw [List.cons_append, separateFrom]
    simp [here, ih fun d hd => h d (by simp [hd])]

theorem bracketsMatch_of_plain {t : Text} (h : ∀ c ∈ t, decides c = false) : BracketsMatch t := by
  have none_opens {u : Text} (inside : u <+: t) : openings u = 0 :=
    List.countP_eq_zero.2 fun c mem => by
      have here := h c (inside.mem mem)
      simp only [decides, Bool.or_eq_false_iff, decide_eq_false_iff_not] at here
      simp [isOpening, here]
  have none_closes {u : Text} (inside : u <+: t) : closings u = 0 :=
    List.countP_eq_zero.2 fun c mem => by
      have here := h c (inside.mem mem)
      simp only [decides, Bool.or_eq_false_iff, decide_eq_false_iff_not] at here
      simp [isClosing, here]
  constructor
  · rw [none_opens List.prefix_rfl, none_closes List.prefix_rfl]
  · intro u inside
    rw [none_opens inside, none_closes inside]

theorem decides_of_isBlank {c : Char} (h : Text.isBlank c = true) : decides c = false := by
  refine Bool.eq_false_iff.2 fun decided => ?_
  simp only [decides, Bool.or_eq_true, decide_eq_true_eq] at decided
  rcases decided with (((((rfl | rfl) | rfl) | rfl) | rfl) | rfl) | rfl <;> revert h <;> decide

/-! ## The sign -/

def sign (colon : Bool) : Text := if colon then [':', '='] else ['=']

/-- What stands on the two sides of a sign: blanks, and at least one on each side when the sign is
the bare `=`, which would be part of `==` or of `=(` otherwise. -/
structure Apart (colon : Bool) (left right : Text) : Prop where
  left_blank : left.all Text.isBlank = true
  right_blank : right.all Text.isBlank = true
  spaced : colon = false → left ≠ [] ∧ right ≠ []

theorem Apart.colon {left right : Text} (left_blank : left.all Text.isBlank = true)
    (right_blank : right.all Text.isBlank = true) : Apart true left right :=
  ⟨left_blank, right_blank, fun bare => Bool.noConfusion bare⟩

theorem isSeparating_of_isBlank {b d : Char} (hb : Text.isBlank b = true)
    (hd : Text.isBlank d = true) : isSeparating (some b) (some d) = true := by
  have other {c e : Char} (blank : Text.isBlank c = true) (solid : Text.isBlank e = false) :
      c ≠ e := by
    rintro rfl
    rw [blank] at solid
    cases solid
  have next : d ≠ '=' ∧ d ≠ '(' ∧ d ≠ '>' :=
    ⟨other hd (by decide), other hd (by decide), other hd (by decide)⟩
  have previous : b ≠ '<' ∧ b ≠ '>' ∧ b ≠ '!' ∧ b ≠ '=' :=
    ⟨other hb (by decide), other hb (by decide), other hb (by decide), other hb (by decide)⟩
  simp [isSeparating, next, previous]

/-- The scan stops at the sign. -/
theorem separateFrom_sign {name left right : Text} {colon : Bool} (hn : IsConstantName name)
    (hs : Apart colon left right) (rest : Text) :
    separateFrom [] 0 (name ++ (left ++ (sign colon ++ (right ++ rest)))) =
      some (name ++ (left ++ if colon then [':'] else []), right ++ rest) := by
  have blanks : ∀ c ∈ left, decides c = false := fun c mem =>
    decides_of_isBlank (List.all_eq_true.1 hs.left_blank c mem)
  rw [separateFrom_name hn, separateFrom_append blanks]
  cases colon with
  | true => simp [sign, separateFrom, isSeparating]
  | false =>
    obtain ⟨some_left, some_right⟩ := hs.spaced rfl
    obtain ⟨begin, b, rfl⟩ := (List.eq_nil_or_concat left).resolve_left some_left
    obtain ⟨d, others, rfl⟩ := List.exists_cons_of_ne_nil some_right
    have separating : isSeparating (some b) (some d) = true :=
      isSeparating_of_isBlank (List.all_eq_true.1 hs.left_blank b (by simp))
        (List.all_eq_true.1 hs.right_blank d (by simp))
    simp [sign, separateFrom, separating]

/-- The colon of the sign is no part of the name, and neither are blanks before it. -/
theorem constantName_spelled {name left : Text} (hn : IsConstantName name)
    (blank : left.all Text.isBlank = true) (colon : Bool) :
    constantName (name ++ (left ++ if colon then [':'] else [])) = name := by
  obtain ⟨-, last, hl, solid⟩ := Text.ends_of_trimmed hn.trimmed hn.some_name
  have whole : Text.trimEnd (name ++ left) = name := by
    rw [Text.trimEnd_append_blanks blank, Text.trimEnd_of_getLast? hl solid]
  cases colon with
  | true =>
    have kept : Text.trimEnd (name ++ (left ++ [':'])) = name ++ (left ++ [':']) :=
      Text.trimEnd_of_getLast? (c := ':') (by simp [List.getLast?_append]) (by decide)
    have suffix : [':'].isSuffixOf? (name ++ (left ++ [':'])) = some (name ++ left) :=
      Text.isSuffixOf?_eq_some_iff.2 (List.append_assoc ..).symm
    have one_colon : (name ++ left).getLast? ≠ some ':' := by
      rw [List.getLast?_append]
      cases behind : left.getLast? with
      | none => simpa using hn.last
      | some b =>
        have last_blank := List.all_eq_true.1 blank b (List.mem_of_getLast? behind)
        rintro same
        cases same
        revert last_blank
        decide
    simp only [constantName, ↓reduceIte, kept, suffix, if_neg one_colon, whole]
  | false =>
    simp only [constantName, Bool.false_eq_true, ↓reduceIte, List.append_nil, whole,
      Text.isSuffixOf?_eq_none hn.last]

/-- A line in which a sign follows a name is a constant's, with the value behind the sign. -/
theorem constant?_of_sign {line name left right rest value : Text} {colon : Bool}
    (hn : IsConstantName name) (hs : Apart colon left right)
    (trimmed : Text.trim line = name ++ (left ++ (sign colon ++ (right ++ rest))))
    (hv : constantValue (right ++ rest) = value) (some_value : value ≠ []) :
    constant? line = some (name, value) := by
  obtain ⟨first, begin, shape⟩ := List.exists_cons_of_ne_nil hn.some_name
  have no_directive : (Text.trim line).head? ≠ some '#' := by
    rw [trimmed, shape]
    have sign := hn.first
    rw [shape] at sign
    exact sign
  have name_eq := constantName_spelled hn hs.left_blank colon
  unfold constant?
  simp only [no_directive, ↓reduceIte]
  rw [trimmed, separateFrom_sign hn hs]
  simp [name_eq, hv, hn.some_name, some_value]

/-! ## The comma -/

/-- What stands behind the value: a comma, maybe with blanks before it, or nothing. -/
def ending (gap : Text) (comma : Bool) : Text := if comma then gap ++ [','] else []

theorem getLast?_ending {value : Text} {last : Char} (h : value.getLast? = some last)
    (solid : Text.isBlank last = false) (gap : Text) (comma : Bool) :
    ∃ c, (value ++ ending gap comma).getLast? = some c ∧ Text.isBlank c = false := by
  cases comma with
  | true => exact ⟨',', by simp [ending, List.getLast?_append], by decide⟩
  | false => exact ⟨last, by simp [ending, h], solid⟩

/-- The comma behind a value is no part of it, and neither are blanks before it. -/
theorem constantValue_spelled {value right gap : Text} (some_value : value ≠ [])
    (trimmed : Text.trim value = value) (right_blank : right.all Text.isBlank = true)
    (gap_blank : gap.all Text.isBlank = true) {comma : Bool}
    (h : comma = false → value.getLast? ≠ some ',') :
    constantValue (right ++ (value ++ ending gap comma)) = value := by
  obtain ⟨⟨first, hf, first_solid⟩, last, hl, last_solid⟩ := Text.ends_of_trimmed trimmed some_value
  obtain ⟨c, behind, solid⟩ := getLast?_ending hl last_solid gap comma
  have whole : Text.trim (right ++ (value ++ ending gap comma)) = value ++ ending gap comma := by
    rw [Text.trim_blanks_append right_blank]
    exact Text.trim_of_ends (by simp [List.head?_append, hf]) first_solid behind solid
  rw [constantValue, whole]
  cases comma with
  | true =>
    have suffix : [','].isSuffixOf? (value ++ (gap ++ [','])) = some (value ++ gap) :=
      Text.isSuffixOf?_eq_some_iff.2 (List.append_assoc ..).symm
    simp only [ending, ↓reduceIte, suffix]
    rw [Text.trimEnd_append_blanks gap_blank, Text.trimEnd_of_getLast? hl last_solid]
  | false =>
    simp only [ending, Bool.false_eq_true, ↓reduceIte, List.append_nil,
      Text.isSuffixOf?_eq_none (h rfl)]

/-! ## Whole lines -/

/-- A way to write a constant, with blanks where they may stand. -/
structure Spelling where
  lead : Text
  left : Text
  colon : Bool
  right : Text
  gap : Text
  comma : Bool
  trail : Text
  apart : Apart colon left right
  lead_blank : lead.all Text.isBlank = true
  gap_blank : gap.all Text.isBlank = true
  trail_blank : trail.all Text.isBlank = true

def Spelling.write (w : Spelling) (name value : Text) : Text :=
  w.lead ++ (name ++ (w.left ++ (sign w.colon ++ (w.right ++ (value ++ ending w.gap w.comma)))) ++
    w.trail)

/-- A value that no comma follows must not end in one. -/
theorem constant?_write {name value : Text} (hn : IsConstantName name) (some_value : value ≠ [])
    (trimmed : Text.trim value = value) (w : Spelling)
    (last : w.comma = false → value.getLast? ≠ some ',') :
    constant? (w.write name value) = some (name, value) := by
  obtain ⟨⟨first, hf, first_solid⟩, -⟩ := Text.ends_of_trimmed hn.trimmed hn.some_name
  obtain ⟨-, fin, hl, fin_solid⟩ := Text.ends_of_trimmed trimmed some_value
  obtain ⟨c, behind, solid⟩ := getLast?_ending hl fin_solid w.gap w.comma
  have ends : (name ++ (w.left ++ (sign w.colon ++
      (w.right ++ (value ++ ending w.gap w.comma))))).getLast? = some c := by
    obtain ⟨begin, shape⟩ := List.getLast?_eq_some_iff.1 behind
    simp only [shape, ← List.append_assoc, List.getLast?_concat]
  have line := Text.trim_spaced w.lead_blank w.trail_blank
    (Text.trim_of_ends (by simp [List.head?_append, hf]) first_solid ends solid)
  exact constant?_of_sign hn w.apart line
    (constantValue_spelled some_value trimmed w.apart.right_blank w.gap_blank last) some_value

/-- However a constant is written, as `name = value`, `name:=value`, `name = value,` or
`name:=value,`, with blanks around the whole, the sign and the comma, its line has its name and
its value, whatever operators occur in the name, and whatever occurs in the value. -/
theorem constant?_spelled {name value : Text} (hn : IsConstantName name)
    (hv : IsConstantValue value) (w : Spelling) :
    constant? (w.write name value) = some (name, value) :=
  constant?_write hn hv.some_value hv.trimmed w fun _ => hv.last

/-- A name with operators outside and inside brackets. -/
def operatorName : Text := "S<T::operator<=>(a = b)>::operator+=(S)::operator==".toList

/-- Blanks around the line, the bare sign and the comma. -/
def loose : Spelling where
  lead := ['\t']
  left := [' ']
  colon := false
  right := [' ']
  gap := [' ']
  comma := true
  trail := [' ', '\r']
  apart := ⟨by decide, by decide, by decide⟩
  lead_blank := by decide
  gap_blank := by decide
  trail_blank := by decide

/-- Neither blanks nor a comma. -/
def tight : Spelling where
  lead := []
  left := []
  colon := true
  right := []
  gap := []
  comma := false
  trail := []
  apart := Apart.colon List.all_nil List.all_nil
  lead_blank := List.all_nil
  gap_blank := List.all_nil
  trail_blank := List.all_nil

theorem constant?_spelled_operator :
    IsConstantName operatorName ∧ IsConstantValue "= f(x == [".toList ∧
      loose.write operatorName "= f(x == [".toList =
        "\tS<T::operator<=>(a = b)>::operator+=(S)::operator== = = f(x == [ , \r".toList ∧
      constant? (loose.write operatorName "= f(x == [".toList) =
        some (operatorName, "= f(x == [".toList) ∧
      tight.write operatorName "= f(x == [".toList =
        "S<T::operator<=>(a = b)>::operator+=(S)::operator==:== f(x == [".toList ∧
      constant? (tight.write operatorName "= f(x == [".toList) =
        some (operatorName, "= f(x == [".toList) := by
  have name : IsConstantName operatorName := by decide +kernel
  have value : IsConstantValue "= f(x == [".toList := by decide +kernel
  exact ⟨name, value, by decide +kernel, constant?_spelled name value loose, by decide +kernel,
    constant?_spelled name value tight⟩

end ConstantDump.Line
