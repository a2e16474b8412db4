import ConstantDump.Proofs.Literal.Array
import ConstantDump.Proofs.Literal.Integer
import ConstantDump.Proofs.Text.Quoted
import ConstantDump.Value.Display

/-!
Values without parts whose text is a literal again.

* `displays_display`: the text of a value is one of the ways to display it;
* `decode_displays_iff`: a displayed value is decoded as itself exactly when it reads back;
* `decode_display`: the law for the text of a value, and for any other choice of the characters that
  have a form of their own.
-/

namespace ConstantDump

/-- Some text displays a value without parts. It is left open which characters beyond ASCII are shown
by their code points. -/
inductive Displays : Value → Text → Prop
  | int (n : Int) : Displays (.int n) (Text.ofInt n)
  | bool (b : Bool) : Displays (.bool b) (if b then "true".toList else "false".toList)
  | char (c : Char) (t : Text) (h : Text.Shows '\'' c t) :
      Displays (.char c) (Text.quotation '\'' t)
  | str (s : Text) (texts : List Text) (h : List.Forall₂ (Text.Shows '"') s texts) :
      Displays (.str s) (Text.quotation '"' texts.flatten)

/-- The values without parts that are decoded from their own text: integers with room in 128 bits,
truth values, characters, and strings in which no null character stands directly before an octal
digit. -/
def Value.ReadsBack : Value → Prop
  | .int n => -2 ^ 127 ≤ n ∧ n ≤ 2 ^ 127 - 1
  | .bool _ => True
  | .char _ => True
  | .str s => Text.NullsApart s
  | _ => False

theorem displays_display {v : Value} {t : Text} (h : Displays v t) : Displays v v.display := by
  cases h with
  | int n => exact .int n
  | bool b => exact .bool b
  | char c _ _ =>
    have shape : (Value.char c).display = Text.quotation '\'' (Text.quoteChar '\'' c) := by
      simp [Value.display, Text.quotedBy, Text.quotation]
    rw [shape]
    exact .char c _ (Text.shows_quoteChar '\'' c)
  | str s _ _ =>
    have shape : (Value.str s).display =
        Text.quotation '"' (s.map (Text.quoteChar '"')).flatten := by
      simp [Value.display, Text.quoted, Text.quotedBy, Text.quotation, List.flatMap_def]
    rw [shape]
    exact .str s _ (Text.shows_quoteChars '"' s)

namespace Literal

/-- A written integer is a numeral that denotes it. -/
theorem ofInt_eq_numeral (n : Int) :
    ∃ negative digits, Text.ofInt n = numeral negative digits ∧
      Text.isDecimal digits = true ∧ denoted negative digits = n := by
  have value (k : Nat) : decimalValue (Text.ofNat k) = k := Nat.ofDigitChars_ten_toDigits
  cases n with
  | ofNat k =>
    refine ⟨false, Text.ofNat k, rfl, isDecimal_ofNat k, ?_⟩
    rw [← signed_decimalValue, value]
    rfl
  | negSucc k =>
    refine ⟨true, Text.ofNat (k + 1), rfl, isDecimal_ofNat (k + 1), ?_⟩
    rw [← signed_decimalValue, value]
    rfl

theorem decode_ofInt_iff (types : Types) (n : Int) :
    decode types (Text.ofInt n) = .int n ↔ -2 ^ 127 ≤ n ∧ n ≤ 2 ^ 127 - 1 := by
  obtain ⟨negative, digits, shape, decimal, rfl⟩ := ofInt_eq_numeral n
  rw [shape, decode_eq, ofText_numeral decimal]
  by_cases room : -2 ^ 127 ≤ denoted negative digits ∧ denoted negative digits ≤ 2 ^ 127 - 1
  · rw [if_pos room]
    exact iff_of_true rfl room
  · rw [if_neg room]
    exact iff_of_false (by rintro ⟨⟩) room

theorem decode_truth (types : Types) (b : Bool) :
    decode types (if b then "true".toList else "false".toList) = .bool b := by
  have form : Form.ofText (if b then "true".toList else "false".toList) = .scalar (.bool b) := by
    cases b <;> decide +kernel
  rw [decode_eq, form]

/-- However a value is displayed, it is decoded as itself just when it reads back. -/
theorem decode_displays_iff {v : Value} {t : Text} (h : Displays v t) (types : Types) :
    decode types t = v ↔ v.ReadsBack := by
  cases h with
  | int n => exact decode_ofInt_iff types n
  | bool b => exact iff_of_true (decode_truth types b) trivial
  | char c t h =>
    have single : Bracket.isQuote '\'' = true := by decide
    have shown : List.Forall₂ (Text.Shows '\'') [c] [t] := .cons h .nil
    have read : Text.unescape [t].flatten = [c] :=
      (Text.unescape_shown_iff single shown).2 (.singleton c)
    rw [List.flatten_cons, List.flatten_nil, List.append_nil] at read
    refine iff_of_true ?_ trivial
    rw [Quotation.decode_enclosed single, read]
    rfl
  | str s texts h =>
    have double : Bracket.isQuote '"' = true := by decide
    have string : Quotation.valueOf '"' (Text.unescape texts.flatten) =
        .str (Text.unescape texts.flatten) := rfl
    rw [Quotation.decode_enclosed double, string, Value.str.injEq]
    exact Text.unescape_shown_iff double h

theorem exists_displays {v : Value} (h : v.ReadsBack) : ∃ t, Displays v t := by
  cases v with
  | int n => exact ⟨_, .int n⟩
  | bool b => exact ⟨_, .bool b⟩
  | char c => exact ⟨_, .char c _ (Text.shows_quoteChar '\'' c)⟩
  | str s => exact ⟨_, .str s _ (Text.shows_quoteChars '"' s)⟩
  | _ => cases h

/-- Integers in range, truth values, characters and strings are decoded from their own text, and so
they are from any other that differs in the characters shown by their code points. The one exception
are strings in which a null character would take an octal digit with it. -/
theorem decode_display (types : Types) :
    (∀ v : Value, v.ReadsBack → decode types v.display = v) ∧
    (∀ v t, Displays v t → Displays v v.display) ∧
    ∀ v t, Displays v t → (decode types t = v ↔ v.ReadsBack) := by
  refine ⟨?_, fun v t => displays_display, fun v t h => decode_displays_iff h types⟩
  intro v reads
  obtain ⟨t, h⟩ := exists_displays reads
  exact (decode_displays_iff (displays_display h) types).2 reads

/-- Two null characters before a digit that is not octal, both quotes, a backslash, a letter beyond
ASCII and a combining mark. -/
def markedText : Text := "\x00\x008\"'\\é\u0301".toList

theorem decode_display_markedText :
    (Value.str markedText).ReadsBack ∧
    (Value.str markedText).display = "\"\\0\\08\\\"'\\\\é\\u\x7b301\x7d\"".toList ∧
    decode .characters (Value.str markedText).display = .str markedText ∧
    Displays (.str markedText) "\"\\0\\08\\\"'\\\\\\u\x7be9\x7d\u0301\"".toList ∧
    decode .characters "\"\\0\\08\\\"'\\\\\\u\x7be9\x7d\u0301\"".toList = .str markedText ∧
    decode .characters (Value.str "\x001".toList).display ≠ .str "\x001".toList := by
  obtain ⟨own, among, any⟩ := decode_display .characters
  have apart : (Value.str markedText).ReadsBack := by
    show Text.NullsApart markedText
    decide
  have other : Displays (.str markedText) _ :=
    .str _ _ <| .cons .null <| .cons .null <| .cons (.plain '8' (by decide)) <|
      .cons (.sheltered '"' (by decide)) <| .cons (.plain '\'' (by decide)) <|
      .cons (.sheltered '\\' (by decide)) <| .cons (.codePoint 'é' (by decide) (by decide)) <|
      .cons (.plain '\u0301' (by decide)) .nil
  have merged : ¬ (Value.str "\x001".toList).ReadsBack := by
    show ¬ Text.NullsApart "\x001".toList
    decide
  have shown : Displays (.str "\x001".toList) (Value.str "\x001".toList).display :=
    among _ _ (.str _ _ (Text.shows_quoteChars '"' _))
  exact ⟨apart, by decide +kernel, own _ apart, other, (any _ _ other).2 apart,
    mt (any _ _ shown).1 merged⟩

end Literal

end ConstantDump
