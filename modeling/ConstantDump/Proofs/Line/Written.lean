import ConstantDump.Literal.Decode
import ConstantDump.Proofs.Line.Kinds
import ConstantDump.Proofs.Line.Spelling
import ConstantDump.Proofs.Name.Identifier
import ConstantDump.Text.Lines

/-!
Lines as a dump has them, and what the recognisers see in them.

* `decode_ofInt`: a written integer has its value, whatever the types;
* `constant?_written`: a constant's line has its name and its value;
* `enumOpening?_written`: an opening line has its name;
* `lines_written`: lines that are ended one by one are the lines of the text.
-/

namespace ConstantDump

namespace Text

def written (lines : List Text) : Text := lines.flatMap (· ++ ['\n'])

theorem lines_concat {line : Text} (h : '\n' ∉ line) (hr : line.getLast? ≠ some '\r') :
    lines (line ++ ['\n']) = [line] := by
  have split : (line ++ ['\n']).splitOnP (· == '\n') = [line, []] := by
    have whole : line.splitOnP (· == '\n') = [line] :=
      List.splitOnP_eq_singleton fun c hc => by
        rw [beq_eq_false_iff_ne]
        rintro rfl
        exact h hc
    rw [List.splitOnP_append_cons line [] rfl, whole, List.splitOnP_nil]
    rfl
  have kept : dropReturn line = line := by
    rw [dropReturn, isSuffixOf?_eq_none hr]
    rfl
  rw [lines, split, linesOfPieces, linesOfPieces, kept]
  rfl

/-- Lines without line feeds are read as they were written. -/
theorem lines_written {ls : List Text}
    (h : ∀ line ∈ ls, '\n' ∉ line ∧ line.getLast? ≠ some '\r') : lines (written ls) = ls := by
  induction ls with
  | nil => rfl
  | cons line ls ih =>
    obtain ⟨⟨feed, carriage⟩, rest⟩ := List.forall_mem_cons.1 h
    have shape : written (line :: ls) = line ++ '\n' :: written ls := by simp [written]
    rw [shape, lines_append, lines_concat feed carriage, ih rest]
    rfl

/-- The characters of a written integer. -/
theorem mem_ofInt {n : Int} {c : Char} (h : c ∈ ofInt n) : c = '-' ∨ c.isDigit = true := by
  have digits {k : Nat} (hk : c ∈ ofNat k) : c.isDigit = true :=
    Nat.isDigit_of_mem_toDigits (by decide) (by decide) hk
  cases n with
  | ofNat k => exact .inr (digits h)
  | negSucc k =>
    rcases List.mem_cons.1 h with rfl | h
    · exact .inl rfl
    · exact .inr (digits h)

theorem ofInt_ne_nil (n : Int) : ofInt n ≠ [] := by
  cases n with
  | ofNat k => exact Nat.toDigits_ne_nil
  | negSucc k => exact List.cons_ne_nil _ _

theorem isBlank_of_mem_ofInt {n : Int} {c : Char} (h : c ∈ ofInt n) : isBlank c = false := by
  rcases mem_ofInt h with rfl | digit
  · decide
  · refine Bool.eq_false_iff.2 fun blank => ?_
    have code : 48 ≤ c.toNat ∧ c.toNat ≤ 57 := by
      simpa [Char.isDigit, UInt32.le_iff_toNat_le] using digit
    have low := toNat_of_isBlank blank (by omega)
    omega

end Text

namespace Literal

theorem isDecimal_ofNat (k : Nat) : Text.isDecimal (Text.ofNat k) = true := by
  have digits : ∀ c ∈ Text.ofNat k, c.isDigit = true := fun c hc =>
    Nat.isDigit_of_mem_toDigits (by decide) (by decide) hc
  have some_digit : Text.ofNat k ≠ [] := Nat.toDigits_ne_nil
  simp only [Text.isDecimal, some_digit, ne_eq, not_false_eq_true, decide_true, Bool.true_and,
    List.all_eq_true]
  exact digits

/-- A written integer has its value. -/
theorem integer?_ofInt {n : Int} (h : inRange n = true) : integer? (Text.ofInt n) = some n := by
  have value (k : Nat) : decimalValue (Text.ofNat k) = k := Nat.ofDigitChars_ten_toDigits
  cases n with
  | ofNat k =>
    have plain : dropMinus (Text.ofNat k) = (false, Text.ofNat k) := by
      unfold dropMinus
      split
      · rename_i rest same
        have minus : '-' ∈ Text.ofNat k := by simp [same]
        have digit := Nat.isDigit_of_mem_toDigits (b := 10) (by decide) (by decide) minus
        cases digit
      · rfl
    have sign : signed false k = (k : Int) := rfl
    simp only [integer?, Text.ofInt, plain, isDecimal_ofNat, value, sign, ↓reduceIte]
    exact if_pos h
  | negSucc k =>
    have minus : dropMinus ('-' :: Text.ofNat (k + 1)) = (true, Text.ofNat (k + 1)) := rfl
    have sign : signed true (k + 1) = Int.negSucc k := rfl
    simp only [integer?, Text.ofInt, minus, isDecimal_ofNat, value, sign, ↓reduceIte]
    exact if_pos h

theorem decode_ofInt {n : Int} (h : inRange n = true) (types : Types) :
    decode types (Text.ofInt n) = .int n := by
  have form : Form.ofText (Text.ofInt n) = .scalar (.int n) := by
    simp [Form.ofText, scalar?, integer?_ofInt h]
  rw [decode_eq, form]

theorem decodeIn_ofInt {n : Int} (h : inRange n = true) (s : Scope) :
    decodeIn s (Text.ofInt n) = .int n := decode_ofInt h _

end Literal

namespace Line

/-! ## Constants -/

/-- Between the name and the value of a constant. -/
def assigns (spaced : Bool) : Text := if spaced then " = ".toList else ":=".toList

/-- Names that can stand in front of a value: no bracket and no `=` in them, no blank at their
ends, and no colon at their end. -/
structure Assignable (name : Text) : Prop where
  plain : ∀ c ∈ name, decides c = false
  first : ∃ c, name.head? = some c ∧ Text.isBlank c = false ∧ c ≠ '#'
  last : ∃ c, name.getLast? = some c ∧ Text.isBlank c = false ∧ c ≠ ':'

theorem Assignable.isConstantName {name : Text} (h : Assignable name) : IsConstantName name := by
  obtain ⟨first, hf, first_solid, no_sign⟩ := h.first
  obtain ⟨last, hl, last_solid, no_colon⟩ := h.last
  constructor
  · rintro rfl
    cases hf
  · exact Text.trim_of_ends hf first_solid hl last_solid
  · rw [hf]
    simpa using no_sign
  · rw [hl]
    simpa using no_colon
  · exact bracketsMatch_of_plain h.plain
  · rintro before after rfl
    have sign := h.plain '=' (by simp)
    cases sign

/-- A written constant has its name and its value, without the comma behind it. -/
theorem constant?_written {name value : Text} (h : Assignable name) (spaced : Bool)
    (some_value : value ≠ []) (solid : ∀ c ∈ value, Text.isBlank c = false) :
    constant? (name ++ (assigns spaced ++ (value ++ [',']))) = some (name, value) := by
  have trimmed : Text.trim value = value := by
    have front := List.head?_eq_some_head some_value
    have back := List.getLast?_eq_some_getLast some_value
    exact Text.trim_of_ends front (solid _ (List.mem_of_head? front)) back
      (solid _ (List.mem_of_getLast? back))
  cases spaced with
  | true =>
    have line := constant?_write h.isConstantName some_value trimmed
      ⟨[], [' '], false, [' '], [], true, [], ⟨by decide, by decide, by simp⟩, by decide,
        by decide, by decide⟩ (by simp)
    simpa [Spelling.write, sign, ending, assigns] using line
  | false =>
    have line := constant?_write h.isConstantName some_value trimmed
      ⟨[], [], true, [], [], true, [], .colon (by decide) (by decide), by decide, by decide,
        by decide⟩ (by simp)
    simpa [Spelling.write, sign, ending, assigns] using line

/-! ## Openings -/

/-- One blank in front of a text that starts with none. -/
theorem blanks?_space {t : Text} {c : Char} (head : t.head? = some c)
    (solid : Text.isBlank c = false) : blanks? (' ' :: t) = some ([' '], t) := by
  obtain ⟨rest, rfl⟩ := List.head?_eq_some_iff.1 head
  have space : Text.isBlank ' ' = true := by decide
  have none_taken : (c :: rest).takeWhile Text.isBlank = [] :=
    List.takeWhile_cons_of_neg (by simp [solid])
  have all_left : (c :: rest).dropWhile Text.isBlank = c :: rest :=
    List.dropWhile_cons_of_neg (by simp [solid])
  rw [blanks?, List.head?_cons, Option.any_some, if_pos space,
    List.takeWhile_cons_of_pos space, List.dropWhile_cons_of_pos space, none_taken, all_left]

theorem beforeBrace?_written (name : Text) :
    beforeBrace? (name ++ " \x7b".toList) = some (name ++ [' ']) := by
  have back : (name ++ " \x7b".toList).getLast? = some '\x7b' := by
    rw [List.getLast?_append]
    rfl
  rw [beforeBrace?, Text.trimEnd_of_getLast? back (by decide)]
  refine Text.isSuffixOf?_eq_some_iff.2 ?_
  rw [List.append_assoc]
  rfl

/-- A written opening line has its name. -/
theorem enumOpening?_written {name : Text}
    (first : ∃ c, name.head? = some c ∧ Text.isBlank c = false)
    (last : ∃ c, name.getLast? = some c ∧ Text.isBlank c = false) (feed : '\n' ∉ name) :
    enumOpening? ("enum ".toList ++ (name ++ " \x7b".toList)) = some name := by
  obtain ⟨begin, hb, begin_solid⟩ := first
  obtain ⟨fin, hl, fin_solid⟩ := last
  have keyword : "enum".toList.isPrefixOf? (Text.trimStart
      ("enum ".toList ++ (name ++ " \x7b".toList))) = some (' ' :: (name ++ " \x7b".toList)) :=
    Text.isPrefixOf?_eq_some_iff.2 rfl
  have blank : blanks? (' ' :: (name ++ " \x7b".toList)) =
      some ([' '], name ++ " \x7b".toList) := by
    have front : (name ++ " \x7b".toList).head? = some begin := by
      rw [List.head?_append, hb]
      rfl
    exact blanks?_space front begin_solid
  have trimmed : Text.trimEnd (name ++ [' ']) = name := by
    rw [Text.trimEnd_concat, Text.trimEnd_of_getLast? hl fin_solid]
    rfl
  have name_ne : name ≠ [] := by
    rintro rfl
    cases hb
  unfold enumOpening?
  rw [keyword]
  simp only [Option.bind_eq_bind, Option.bind_some, blank, beforeBrace?_written, trimmed,
    if_neg name_ne, if_neg feed]

end Line

end ConstantDump
