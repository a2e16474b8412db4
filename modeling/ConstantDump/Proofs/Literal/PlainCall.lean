import ConstantDump.Proofs.Bracket.Enclosed
import ConstantDump.Proofs.Line.Written
import ConstantDump.Proofs.Literal.RecordCall
import Mathlib.Data.List.Basic

/-!
Calls that are arguments themselves.

* `split_callText`: a call of a plainly named type is one argument;
* `parenthesesMatch_join`: arguments whose parentheses match one another do so together;
* `decode_callText`: a call whose arguments are one piece each, with parentheses that match,
  has the value that its type makes of the arguments' values.
-/

namespace ConstantDump.Literal

structure PlainName (typeName : Text) : Prop where
  plain : ∀ c ∈ typeName, Bracket.isPlain c = true ∧ c ≠ ','
  first : ∃ c, typeName.head? = some c ∧ Text.isBlank c = false

/-! ## Integers -/

theorem isPlain_of_mem_ofInt {n : Int} {c : Char} (h : c ∈ Text.ofInt n) :
    Bracket.isPlain c = true ∧ c ≠ ',' := by
  rcases Text.mem_ofInt h with rfl | digit
  · decide
  · refine ⟨Bracket.isPlain_of_class (by decide) digit, ?_⟩
    rintro rfl
    cases digit

theorem split_ofInt (n : Int) : Bracket.split ',' (Text.ofInt n) = some [Text.ofInt n] := by
  obtain ⟨first, others, shape⟩ := List.exists_cons_of_ne_nil (Text.ofInt_ne_nil n)
  have visible {c : Char} (h : c ∈ Text.ofInt n) : Text.isBlank c = false :=
    Text.isBlank_of_mem_ofInt h
  refine Bracket.split_eq_singleton_iff.2 ⟨?_, ?_, ?_⟩
  · rw [Text.isAllBlank, List.all_eq_false]
    exact ⟨first, by simp [shape], by simp [visible (c := first) (by simp [shape])]⟩
  · have whole := Bracket.piecesFrom_plain (fun c => isPlain_of_mem_ofInt (n := n)) []
    rw [List.append_nil] at whole
    rw [Bracket.pieces, whole]
    simp [Bracket.piecesFrom]
  · obtain ⟨begin, last, concat⟩ := (List.eq_nil_or_concat' _).resolve_left (Text.ofInt_ne_nil n)
    have start : (Text.ofInt n).head? = some first := by rw [shape]; rfl
    have ending : (Text.ofInt n).getLast? = some last := by rw [concat, List.getLast?_concat]
    rw [Text.trim, Text.trimStart_of_head? start (visible (List.mem_of_head? start)),
      Text.trimEnd_of_getLast? ending (visible (List.mem_of_getLast? ending))]

theorem parenthesesMatch_ofInt (n : Int) : ParenthesesMatch (Text.ofInt n) := by
  refine parenthesesMatch_of_not_mem (fun h => ?_) fun h => ?_
  · cases (isPlain_of_mem_ofInt h).1
  · cases (isPlain_of_mem_ofInt h).1

/-! ## Calls -/

/-- A call of a plainly named type is one argument, when its arguments close what they open. -/
theorem split_callText {typeName : Text} (name : PlainName typeName) {arguments : List Text}
    (h : Bracket.after? .start (Text.join Value.comma arguments) = some .start) :
    Bracket.split ',' (callText typeName arguments) = some [callText typeName arguments] := by
  obtain ⟨c, head, visible⟩ := name.first
  have shape : callText typeName arguments =
      typeName ++ ('(' :: (Text.join Value.comma arguments ++ [')'])) := by
    simp [callText]
  have start : (callText typeName arguments).head? = some c := by
    rw [shape, List.head?_append, head]
    rfl
  refine Bracket.split_eq_singleton_iff.2 ⟨?_, ?_, ?_⟩
  · rw [Text.isAllBlank, List.all_eq_false]
    exact ⟨c, List.mem_of_head? start, by simp [visible]⟩
  · rw [shape]
    exact Bracket.pieces_enclosed name.plain rfl h
  · rw [Text.trim, Text.trimStart_of_head? start visible,
      Text.trimEnd_of_getLast? (getLast?_callText _ _) (by decide)]

theorem parenthesesMatch_join {arguments : List Text}
    (h : ∀ a ∈ arguments, ParenthesesMatch a) :
    ParenthesesMatch (Text.join Value.comma arguments) := by
  have comma : ParenthesesMatch Value.comma := by decide
  induction arguments with
  | nil => decide
  | cons first rest ih =>
    obtain ⟨here, others⟩ := List.forall_mem_cons.1 h
    cases rest with
    | nil => exact here
    | cons second rest => exact (here.append comma).append (ih others)

theorem parenthesesMatch_callText {typeName : Text} (name : PlainName typeName)
    {arguments : List Text} (h : ∀ a ∈ arguments, ParenthesesMatch a) :
    ParenthesesMatch (callText typeName arguments) := by
  have none_in_name : ParenthesesMatch typeName := by
    refine parenthesesMatch_of_not_mem (fun mem => ?_) fun mem => ?_
    · cases (name.plain _ mem).1
    · cases (name.plain _ mem).1
  have shape : callText typeName arguments =
      typeName ++ ('(' :: (Text.join Value.comma arguments ++ [')'])) := by
    simp [callText]
  rw [shape]
  exact none_in_name.append (parenthesesMatch_join h).enclosed

/-- The value of a call. -/
theorem decode_callText {types : Types} {typeName : Text} {arguments : List Text}
    (hne : typeName ≠ []) (hq : ∀ c ∈ typeName, Bracket.isQuote c = false)
    (hb : typeName.count '(' = typeName.count ')')
    (ha : ∀ a ∈ arguments, Bracket.split ',' a = some [a] ∧ ParenthesesMatch a) :
    decode types (callText typeName arguments) =
      construct types typeName (arguments.map (decode types)) := by
  rw [decode_eq, ofText_callText_of_match hne hq hb (fun a hm => (ha a hm).1)
    (parenthesesMatch_join fun a hm => (ha a hm).2)]

end ConstantDump.Literal
