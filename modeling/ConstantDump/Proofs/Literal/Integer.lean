import ConstantDump.Literal.Decode
import ConstantDump.Proofs.Literal.Scalar
import Mathlib.Data.List.Induction
import Mathlib.Data.List.TakeWhile
import Mathlib.Data.Nat.Digits.Defs

/-!
Integer literals of any length. The number that the digits denote is the literal's value, or the
literal is kept as it is.

* `decimalValue_eq_ofDigits`: digits read from the left have the value of their places;
* `ofText_of_endsInDigit`: what ends in a digit has no form but that of a number;
* `decode_numeral`: the value of a literal of digits.
-/

namespace ConstantDump.Literal

def numeral (negative : Bool) (digits : Text) : Text :=
  if negative then '-' :: digits else digits

/-- The integer that the sign and the digits denote: the last digit counts once, and each digit
before another one ten times as much as that one. -/
def denoted (negative : Bool) (digits : Text) : Int :=
  (if negative then -1 else 1) *
    (Nat.ofDigits 10 (digits.reverse.map fun c => c.toNat - '0'.toNat) : Nat)

/-! ## The value of the digits -/

theorem decimalValue_concat (digits : Text) (c : Char) :
    decimalValue (digits ++ [c]) = 10 * decimalValue digits + (c.toNat - '0'.toNat) := by
  rw [decimalValue, Nat.ofDigitChars_append, Nat.ofDigitChars_cons, Nat.ofDigitChars_nil]
  rfl

theorem decimalValue_eq_ofDigits (digits : Text) :
    decimalValue digits = Nat.ofDigits 10 (digits.reverse.map fun c => c.toNat - '0'.toNat) := by
  induction digits using List.reverseRecOn with
  | nil => rfl
  | append_singleton digits c ih =>
    rw [decimalValue_concat, ih, List.reverse_concat, List.map_cons, Nat.ofDigits_cons,
      Nat.add_comm]

theorem signed_decimalValue (negative : Bool) (digits : Text) :
    signed negative (decimalValue digits) = denoted negative digits := by
  rw [denoted, ← decimalValue_eq_ofDigits]
  cases negative <;> simp [signed]

theorem inRange_iff {n : Int} : inRange n = true ↔ -2 ^ 127 ≤ n ∧ n ≤ 2 ^ 127 - 1 := by
  have bound : Int.pow 2 127 = 2 ^ 127 := rfl
  simp only [inRange, bound, Bool.and_eq_true, decide_eq_true_eq]
  omega

/-! ## Reading the literal -/

variable {negative : Bool} {digits : Text}

theorem dropMinus_numeral (h : Text.isDecimal digits = true) :
    dropMinus (numeral negative digits) = (negative, digits) := by
  cases negative with
  | true => rfl
  | false =>
    show dropMinus digits = (false, digits)
    unfold dropMinus
    split
    · -- A minus sign is no digit.
      cases h
    · rfl

theorem endsInDigit_numeral (h : Text.isDecimal digits = true) :
    EndsInDigit (numeral negative digits) := by
  have same : (dropMinus (numeral negative digits)).2 = digits := by rw [dropMinus_numeral h]
  have behind := dropMinus_suffix (numeral negative digits)
  rw [same] at behind
  exact (endsInDigit_of_isDecimal h).of_suffix behind

theorem integer?_numeral (h : Text.isDecimal digits = true) :
    integer? (numeral negative digits) =
      if -2 ^ 127 ≤ denoted negative digits ∧ denoted negative digits ≤ 2 ^ 127 - 1 then
        some (denoted negative digits)
      else none := by
  simp only [integer?, dropMinus_numeral h, h, ↓reduceIte, signed_decimalValue, inRange_iff]

/-- Without a point, no float is there. -/
theorem float?_numeral (h : Text.isDecimal digits = true) :
    float? (numeral negative digits) = none := by
  obtain ⟨some_digit, decimal⟩ := Bool.and_eq_true_iff.1 h
  have all : ∀ c ∈ digits, c.isDigit = true := List.all_eq_true.1 decimal
  have whole : digits? digits = some (digits, []) := by
    have taken : digits.takeWhile Char.isDigit = digits := List.takeWhile_eq_self_iff.2 all
    have left : digits.dropWhile Char.isDigit = [] := List.dropWhile_eq_nil_iff.2 all
    have nonempty : digits ≠ [] := of_decide_eq_true some_digit
    simp only [digits?, taken, left, if_neg nonempty]
  simp only [float?, dropMinus_numeral h, whole]
  rfl

/-! ## The other forms -/

/-- A digit is no letter of a word. -/
theorem foldsTo_of_isDigit {letter c : Char} (digit : c.isDigit = true)
    (word : letter.isDigit = false) : Text.foldsTo letter c = false := by
  have code : 48 ≤ c.toNat ∧ c.toNat ≤ 57 := Char.isDigit_iff_toNat.1 digit
  have small : c.toLower = c := by
    refine dif_neg fun upper => ?_
    have letters : 65 ≤ c.toNat := upper.1
    omega
  have other : c ≠ letter := by
    rintro rfl
    rw [digit] at word
    cases word
  have long : c ≠ 'ſ' := by
    rintro rfl
    cases digit
  simp [Text.foldsTo, small, other, long]

/-- What ends in a digit is a number or nothing: quoted texts, truth values, arrays and calls end
in something else. -/
theorem ofText_of_endsInDigit {raw : Text} (h : EndsInDigit raw) :
    Form.ofText raw =
      ((integer? raw).map (Form.scalar ∘ .int) <|> (float? raw).map (Form.scalar ∘ .float)).getD
        .verbatim := by
  obtain ⟨last, ends, digit⟩ := h
  have no_quotes : quoted? raw = none := by
    refine Option.eq_none_iff_forall_ne_some.2 fun value quoted => ?_
    obtain ⟨quote, closes, is_quote⟩ := quoted?_getLast? quoted
    obtain rfl : last = quote := Option.some.inj (ends.symm.trans closes)
    have quotes : last = '"' ∨ last = '\'' := Bracket.isQuote_iff.1 is_quote
    rcases quotes with rfl | rfl <;> cases digit
  have no_truth : truth? raw = none := by
    refine Option.eq_none_iff_forall_ne_some.2 fun b word => ?_
    have no_digit : "truefalse".toList.any Char.isDigit = false := by decide
    have apart : "truefalse".toList.any (Text.foldsTo · last) = false := by
      refine List.any_eq_false.2 fun letter mem => ?_
      have other : letter.isDigit = false :=
        Bool.eq_false_iff.2 (List.any_eq_false.1 no_digit letter mem)
      rw [foldsTo_of_isDigit digit other]
      decide
    exact not_mem_of_truth? apart word (List.mem_of_getLast? ends)
  have open_end : [')'].isSuffixOf? raw = none := by
    refine Text.isSuffixOf?_eq_none fun closes => ?_
    obtain rfl : last = ')' := Option.some.inj (ends.symm.trans closes)
    cases digit
  have no_array : elements? raw = none := by
    refine Option.eq_none_iff_forall_ne_some.2 fun elements array => ?_
    obtain ⟨inner, inside, -⟩ := Option.bind_eq_some_iff.1 array
    obtain ⟨rest, begins, closes⟩ := Option.bind_eq_some_iff.1 inside
    have shape : raw = '(' :: (inner ++ [')']) := by
      rw [Text.isPrefixOf?_eq_some_iff.1 begins, Text.isSuffixOf?_eq_some_iff.1 closes]
      rfl
    rw [Text.isSuffixOf?_eq_some_iff (r := '(' :: inner).2 shape] at open_end
    cases open_end
  have no_call : callForm? raw = none := by simp [callForm?, call?, open_end]
  cases whole : integer? raw with
  | some n => simp [Form.ofText, scalar?, whole]
  | none =>
    cases point : float? raw <;>
      simp [Form.ofText, scalar?, whole, point, no_quotes, no_truth, no_array, no_call]

/-- Digits are an integer where the integer has room, and no literal where it has none. -/
theorem ofText_numeral (h : Text.isDecimal digits = true) :
    Form.ofText (numeral negative digits) =
      if -2 ^ 127 ≤ denoted negative digits ∧ denoted negative digits ≤ 2 ^ 127 - 1 then
        .scalar (.int (denoted negative digits))
      else .verbatim := by
  rw [ofText_of_endsInDigit (endsInDigit_numeral h), integer?_numeral h, float?_numeral h]
  by_cases room : -2 ^ 127 ≤ denoted negative digits ∧ denoted negative digits ≤ 2 ^ 127 - 1
  · rw [if_pos room, if_pos room]
    rfl
  · rw [if_neg room, if_neg room]
    rfl

/-- Digits behind a minus sign or not, as many as there may be and with any zeros in front, have
exactly the integer that they denote as their value, if that has room in 128 bits with a sign; if
not, the literal is kept as it is, whatever the types are called. -/
theorem decode_numeral (types : Types) (negative : Bool) (digits : Text)
    (some_digit : digits ≠ []) (decimal : ∀ c ∈ digits, c.isDigit = true) :
    decode types (numeral negative digits) =
      if -2 ^ 127 ≤ denoted negative digits ∧ denoted negative digits ≤ 2 ^ 127 - 1 then
        .int (denoted negative digits)
      else .text (numeral negative digits) := by
  have h : Text.isDecimal digits = true := by
    rw [Text.isDecimal, List.all_eq_true.2 decimal]
    simpa using some_digit
  rw [decode_eq, ofText_numeral h]
  by_cases room : -2 ^ 127 ≤ denoted negative digits ∧ denoted negative digits ≤ 2 ^ 127 - 1
  · rw [if_pos room, if_pos room]
  · rw [if_neg room, if_neg room]

/-- The last number with room and the first without, on either side, and zeros in front. -/
theorem decode_numeral_limits :
    (∀ c ∈ "0170141183460469231731687303715884105728".toList, c.isDigit = true) ∧
    decode .characters "-0170141183460469231731687303715884105728".toList =
      .int (-170141183460469231731687303715884105728) ∧
    decode .characters "0170141183460469231731687303715884105728".toList =
      .text "0170141183460469231731687303715884105728".toList ∧
    decode .characters "-0".toList = .int 0 := by
  have digits : ∀ c ∈ "0170141183460469231731687303715884105728".toList, c.isDigit = true :=
    List.all_eq_true.1 (by decide)
  have zero : ∀ c ∈ ['0'], c.isDigit = true := List.all_eq_true.1 (by decide)
  have least := decode_numeral .characters true _ (by decide) digits
  have above := decode_numeral .characters false _ (by decide) digits
  have nothing := decode_numeral .characters true ['0'] (by decide) zero
  have value : denoted false "0170141183460469231731687303715884105728".toList = 2 ^ 127 := by
    decide +kernel
  have opposite : denoted true "0170141183460469231731687303715884105728".toList = -2 ^ 127 := by
    decide +kernel
  rw [opposite, if_pos (by decide)] at least
  rw [value, if_neg (by decide)] at above
  exact ⟨digits, least, above, nothing⟩

end ConstantDump.Literal
