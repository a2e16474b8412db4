import ConstantDump.Literal.Decode
import ConstantDump.Proofs.Bracket.Spaced
import ConstantDump.Proofs.Literal.Parenthesis
import ConstantDump.Proofs.Literal.Scalar

/-!
Literals that are kept as they are. A call gives the text of an argument when no type takes the
arguments, but that text is shorter than the call.

* `decode_eq_text_iff`: a literal is its own value exactly when no form fits it;
* `ofText_eq_verbatim_iff`: a text with a parenthesis at its end and none at its start is kept
  exactly when it is cut nowhere into a call;
* `decode_wordlessHead`: the text before a parenthesis need not be the name of anything. One
  without a letter or digit in it is lost like an unknown name when a cut is behind it.
-/

namespace ConstantDump

/-! ## Types build no texts -/

theorem bind_eq_ok_iff {ε α β : Type} {x : Except ε α} {f : α → Except ε β} {b : β} :
    x >>= f = .ok b ↔ ∃ a, x = .ok a ∧ f a = .ok b := by
  cases x <;> simp [bind, Except.bind]

namespace CharacterType

theorem unitValue_ne_text {t : CharacterType} {encoding : Encoding} {unit : Int}
    {contents : Text} : t.unitValue encoding unit ≠ .ok (.text contents) := by
  intro h
  unfold unitValue at h
  split at h
  · cases h
  · split at h <;> cases h

theorem wideValue_ne_text {n : Int} {contents : Text} :
    wideValue n ≠ .ok (.text contents) := by
  intro h
  unfold wideValue at h
  split at h
  · cases h
  · split at h <;> cases h

theorem call_ne_text {t : CharacterType} {arguments : List Value} {contents : Text} :
    t.call arguments ≠ .ok (.text contents) := by
  intro h
  cases t with
  | unit encoding =>
    obtain ⟨n, -, built⟩ := bind_eq_ok_iff.1 h
    exact unitValue_ne_text built
  | wide =>
    obtain ⟨n, -, built⟩ := bind_eq_ok_iff.1 h
    exact wideValue_ne_text built
  | string encoding =>
    obtain ⟨joined, -, built⟩ := bind_eq_ok_iff.1 h
    cases built
  | wideString =>
    obtain ⟨joined, -, built⟩ := bind_eq_ok_iff.1 h
    cases built

end CharacterType

theorem Constructor.call_ne_text {type : Constructor} {arguments : List Value}
    {contents : Text} : type.call arguments ≠ .ok (.text contents) := by
  intro h
  cases type with
  | character t =>
    simp only [Constructor.call] at h
    cases built : t.call arguments with
    | error e => simp [built, Except.mapError] at h
    | ok value =>
      simp only [built, Except.mapError, Except.ok.injEq] at h
      exact CharacterType.call_ne_text (h ▸ built)
  | record r =>
    simp only [Constructor.call, Record.construct] at h
    split at h <;> cases h

namespace Literal

theorem quoted?_ne_text {raw t : Text} : quoted? raw ≠ some (.text t) := by
  intro h
  unfold quoted? at h
  split at h
  · cases h
  · split at h
    · dsimp only at h
      split at h <;> cases h
    · cases h

theorem scalar?_ne_text {raw t : Text} : scalar? raw ≠ some (.text t) := by
  simp [scalar?, quoted?_ne_text]

/-- What a call gives is a text only when that is its one argument. -/
theorem construct_eq_text {types : Types} {name : Text} {arguments : List Value} {t : Text}
    (h : construct types name arguments = .text t) : arguments = [.text t] := by
  have positional {values : List Value} (h : Value.untyped values = .text t) :
      values = [.text t] := by
    unfold Value.untyped at h
    split at h
    · rw [h]
    · cases h
  unfold construct at h
  split at h
  · exact positional h
  · split at h
    · rename_i built
      exact absurd (h ▸ built) Constructor.call_ne_text
    · exact positional h

/-! ## Texts as values -/

theorem exists_call_of_callForm? {raw : Text} {form : Form} (h : callForm? raw = some form) :
    ∃ name arguments, form = .call name arguments := by
  obtain ⟨⟨name, parameters⟩, -, h⟩ := Option.bind_eq_some_iff.1 h
  obtain ⟨arguments, -, h⟩ := Option.bind_eq_some_iff.1 h
  cases h
  exact ⟨name, arguments, rfl⟩

theorem scalar?_of_ofText {raw : Text} {value : Value} (h : Form.ofText raw = .scalar value) :
    scalar? raw = some value := by
  unfold Form.ofText at h
  cases scalar : scalar? raw with
  | some v => simpa [scalar] using h
  | none =>
    cases array : elements? raw with
    | some elements => simp [scalar, array] at h
    | none =>
      cases call : callForm? raw with
      | none => simp [scalar, array, call] at h
      | some form =>
        obtain ⟨name, arguments, rfl⟩ := exists_call_of_callForm? call
        simp [scalar, array, call] at h

/-- A text is the literal itself, or that of an argument. -/
theorem text_of_decode {types : Types} {raw t : Text} (h : decode types raw = .text t) :
    Form.ofText raw = .verbatim ∧ t = raw ∨
      ∃ part ∈ (Form.ofText raw).parts, decode types part = .text t := by
  rw [decode_eq] at h
  cases form : Form.ofText raw with
  | scalar value =>
    simp only [form] at h
    exact absurd (h ▸ scalar?_of_ofText form) scalar?_ne_text
  | array elements => simp [form] at h
  | call name arguments =>
    simp only [form] at h
    obtain ⟨part, rfl, value⟩ := List.map_eq_singleton_iff.1 (construct_eq_text h)
    exact .inr ⟨part, by simp [Form.parts], value⟩
  | verbatim =>
    simp only [form, Value.text.injEq] at h
    exact .inl ⟨rfl, h.symm⟩

/-- The text that a literal gives is no longer than it. -/
theorem length_le_of_decode {types : Types} {raw t : Text} (h : decode types raw = .text t) :
    t.length ≤ raw.length := by
  rcases text_of_decode h with ⟨-, rfl⟩ | ⟨part, inside, value⟩
  · exact Nat.le_refl _
  · exact Nat.le_trans (length_le_of_decode value) (Nat.le_of_lt (length_part_lt inside))
termination_by raw.length
decreasing_by exact length_part_lt inside

/-- A literal is its own value exactly when no form fits it. -/
theorem decode_eq_text_iff {types : Types} {raw : Text} :
    decode types raw = .text raw ↔ Form.ofText raw = .verbatim := by
  constructor
  · intro h
    rcases text_of_decode h with ⟨verbatim, -⟩ | ⟨part, inside, value⟩
    · exact verbatim
    · have shorter := length_part_lt inside
      have whole := length_le_of_decode value
      omega
  · intro h
    rw [decode_eq, h]

/-! ## Where a text is cut into a call -/

/-- A cut of a text into a name and the parameters of a call. -/
structure CallCut (raw name parameters : Text) : Prop where
  text : raw = name ++ '(' :: parameters ++ [')']
  named : name ≠ []
  parenthesesMatch : ParenthesesMatch parameters
  counts : name.count '(' = name.count ')'
  balanced : Bracket.isBalanced parameters = true

/-- A cut makes the text a call of its name. -/
theorem CallCut.callForm? {raw name parameters : Text} (cut : CallCut raw name parameters) :
    ∃ arguments, Bracket.split ',' parameters = some arguments ∧
      Literal.callForm? raw = some (.call name arguments) := by
  have splits : (Bracket.split ',' parameters).isSome = true := by
    rw [Bracket.isSome_split (by decide), cut.balanced]
  obtain ⟨arguments, pieces⟩ := Option.isSome_iff_exists.1 splits
  have call : call? raw = some (name, parameters) :=
    call?_eq_some_iff.2 ⟨cut.text, cut.named, cut.parenthesesMatch, cut.counts⟩
  refine ⟨arguments, pieces, ?_⟩
  simp [Literal.callForm?, call, pieces]

theorem callForm?_eq_none_iff {raw : Text} :
    callForm? raw = none ↔ ¬ ∃ name parameters, CallCut raw name parameters := by
  constructor
  · rintro h ⟨name, parameters, cut⟩
    obtain ⟨arguments, -, form⟩ := cut.callForm?
    rw [h] at form
    cases form
  · intro h
    refine Option.eq_none_iff_forall_not_mem.2 fun form mem => h ?_
    obtain ⟨⟨name, parameters⟩, call, mem⟩ := Option.bind_eq_some_iff.1 mem
    obtain ⟨arguments, pieces, -⟩ := Option.bind_eq_some_iff.1 mem
    obtain ⟨text, named, matching, counts⟩ := call?_eq_some_iff.1 call
    refine ⟨name, parameters, text, named, matching, counts, ?_⟩
    have comma : Text.isBlank ',' = false := by decide
    rw [← Bracket.isSome_split comma, pieces]
    rfl

/-- Of the forms, only a call ends in a parenthesis without one at its start. -/
theorem ofText_eq_callForm? {raw : Text} (last : raw.getLast? = some ')')
    (first : raw.head? ≠ some '(') : Form.ofText raw = (callForm? raw).getD .verbatim := by
  have array : elements? raw = none := by
    refine Option.eq_none_iff_forall_not_mem.2 fun elements mem => first ?_
    obtain ⟨inner, inside, -⟩ := Option.bind_eq_some_iff.1 mem
    obtain ⟨rest, opens, -⟩ := Option.bind_eq_some_iff.1 inside
    rw [Text.isPrefixOf?_eq_some_iff.1 opens]
    rfl
  simp [Form.ofText, scalar?_eq_none last, array]

theorem ofText_eq_verbatim_iff {raw : Text} (last : raw.getLast? = some ')')
    (first : raw.head? ≠ some '(') :
    Form.ofText raw = .verbatim ↔ ¬ ∃ name parameters, CallCut raw name parameters := by
  rw [ofText_eq_callForm? last first, ← callForm?_eq_none_iff]
  cases call : callForm? raw with
  | none => simp
  | some form =>
    obtain ⟨name, arguments, rfl⟩ := exists_call_of_callForm? call
    simp

/-- In front of parentheses that match, a cut needs a head with as many opening ones as closing
ones; the cut behind the head is then one. -/
theorem exists_cut_iff {head parameters : Text} (named : head ≠ [])
    (matching : ParenthesesMatch parameters) (balanced : Bracket.isBalanced parameters = true) :
    (∃ name inner, CallCut (head ++ '(' :: parameters ++ [')']) name inner) ↔
      head.count '(' = head.count ')' := by
  constructor
  · rintro ⟨name, inner, cut⟩
    have count (c : Char) : (head ++ '(' :: parameters ++ [')']).count c =
        (name ++ '(' :: inner ++ [')']).count c := by
      rw [cut.text]
    have opening := count '('
    have closing := count ')'
    have outer := matching.1
    have within := cut.parenthesesMatch.1
    have before := cut.counts
    simp at opening closing
    omega
  · intro counts
    exact ⟨head, parameters, rfl, named, matching, counts, balanced⟩

/-! ## Heads without a word -/

/-- Texts without letters, digits and underscores. -/
def Wordless (t : Text) : Prop := ∀ c ∈ t, Name.continuesIdentifier c = false

instance (t : Text) : Decidable (Wordless t) := List.decidableBAll _ t

/-- Texts that are no name of a type but stand where it would. Neither a quoted text nor an
array begins with one. -/
structure WordlessHead (head : Text) : Prop where
  ne_nil : head ≠ []
  first : ∀ c, head.head? = some c → Bracket.isQuote c = false ∧ c ≠ '('
  wordless : Wordless head

theorem withoutTemplateFrom_sublist (before : Text) (depth : Nat) (t : Text) :
    (Name.withoutTemplateFrom before depth t).Sublist t := by
  fun_induction Name.withoutTemplateFrom before depth t with
  | case1 => exact .slnil
  | case2 before depth c rest _ ih => exact ih.cons c
  | case3 before depth c rest _ _ ih => exact ih.cons c
  | case4 before c rest _ _ ih => exact ih.cons_cons c
  | case5 before depth c rest _ _ _ ih => exact ih.cons c

theorem Wordless.withoutTemplate {name : Text} (h : Wordless name) :
    Wordless (Name.withoutTemplate name) :=
  fun c mem => h c ((withoutTemplateFrom_sublist [] 0 name).subset mem)

/-- Where no type has a name without a word, such a name is unknown. -/
theorem construct_of_wordless {types : Types} {name : Text} (h : Wordless name)
    (unnamed : ∀ n, Wordless n → types n = none) (arguments : List Value) :
    construct types name arguments = .untyped arguments := by
  have unknown : typeOf? types name = none := by
    simp [typeOf?, unnamed name h, unnamed _ h.withoutTemplate]
  rw [construct, unknown]

/-- The names of the character types are words. -/
theorem characters_of_wordless {name : Text} (h : Wordless name) :
    Types.characters name = none := by
  have worded : ∀ t ∈ CharacterType.all, ¬ Wordless t.name := by decide +kernel
  rw [Types.characters, Option.map_eq_none_iff, CharacterType.ofName?, List.find?_eq_none]
  intro t mem same
  have named : t.name = name := by simpa using same
  exact worded t mem (named ▸ h)

/-- A balanced text in parentheses after a head without a word. The whole is kept exactly when it
is cut nowhere into a call. When no quotes are between the parentheses, that depends on the head
alone: it is kept unless it has as many opening parentheses as closing ones. And where there is
a cut, what is before it counts as the name of a type, and is lost when no type has it. -/
theorem decode_wordlessHead (types : Types) {head parameters raw : Text}
    (wordless : WordlessHead head) (balanced : Bracket.isBalanced parameters = true)
    (text : raw = head ++ '(' :: parameters ++ [')']) :
    (decode types raw = .text raw ↔ ¬ ∃ name inner, CallCut raw name inner) ∧
    ((∀ c ∈ parameters, Bracket.isQuote c = false) →
      (decode types raw = .text raw ↔ head.count '(' ≠ head.count ')')) ∧
    ∀ name inner, CallCut raw name inner →
      ∃ arguments, Bracket.split ',' inner = some arguments ∧
        decode types raw = construct types name (arguments.map (decode types)) ∧
        (Wordless name → (∀ n, Wordless n → types n = none) →
          decode types raw = .untyped (arguments.map (decode types))) := by
  have last : raw.getLast? = some ')' := by
    rw [text]
    exact List.getLast?_concat ..
  have first : raw.head? ≠ some '(' := by
    obtain ⟨c, rest, shape⟩ := List.exists_cons_of_ne_nil wordless.ne_nil
    have other := (wordless.first c (by rw [shape]; rfl)).2
    simpa [text, shape] using other
  have kept : decode types raw = .text raw ↔ ¬ ∃ name inner, CallCut raw name inner :=
    decode_eq_text_iff.trans (ofText_eq_verbatim_iff last first)
  refine ⟨kept, fun quotes => ?_, fun name inner cut => ?_⟩
  · have matching := parenthesesMatch_of_isBalanced quotes balanced
    rw [kept, text, exists_cut_iff wordless.ne_nil matching balanced]
  · obtain ⟨arguments, pieces, form⟩ := cut.callForm?
    have value : decode types raw = construct types name (arguments.map (decode types)) := by
      rw [decode_eq, ofText_eq_callForm? last first, form]
      rfl
    refine ⟨arguments, pieces, value, fun unworded unnamed => ?_⟩
    rw [value, construct_of_wordless unworded unnamed]

theorem decode_wordlessHead_minus :
    WordlessHead "-".toList ∧ WordlessHead "-)".toList ∧ Bracket.isBalanced "5".toList = true ∧
    decode .characters "-(5)".toList = .int 5 ∧
    decode .characters "-)(5)".toList = .text "-)(5)".toList := by
  have minus : WordlessHead "-".toList :=
    ⟨by decide, by simp [Bracket.isQuote], by decide +kernel⟩
  have closed : WordlessHead "-)".toList :=
    ⟨by decide, by simp [Bracket.isQuote], by decide +kernel⟩
  have balanced : Bracket.isBalanced "5".toList = true := by decide +kernel
  have cut : CallCut "-(5)".toList "-".toList "5".toList :=
    ⟨rfl, by decide, by decide +kernel, by decide +kernel, balanced⟩
  obtain ⟨arguments, pieces, -, lost⟩ :=
    (decode_wordlessHead .characters minus balanced rfl).2.2 _ _ cut
  have one : Bracket.split ',' "5".toList = some ["5".toList] := by decide +kernel
  have five : decode .characters "5".toList = .int 5 := by decide +kernel
  obtain rfl : arguments = ["5".toList] := Option.some.inj (pieces.symm.trans one)
  have value := lost minus.wordless fun _ => characters_of_wordless
  rw [List.map_singleton, five] at value
  have kept := (decode_wordlessHead .characters closed balanced rfl).2.1 (by simp [Bracket.isQuote])
  exact ⟨minus, closed, balanced, value, kept.2 (by decide +kernel)⟩

/-- A sign in front of parentheses is no type name, and `-(5)` is not kept: its value is `5`. -/
theorem exists_wordlessHead_lost :
    ¬ ∀ (types : Types) (head parameters : Text), WordlessHead head →
      Bracket.isBalanced parameters = true →
      decode types (head ++ '(' :: parameters ++ [')']) =
        .text (head ++ '(' :: parameters ++ [')']) := by
  intro h
  have kept := h .characters "-".toList "5".toList
    ⟨by decide, by simp [Bracket.isQuote], by decide +kernel⟩ (by decide +kernel)
  have lost : decode .characters ("-".toList ++ '(' :: "5".toList ++ [')']) = .int 5 := by
    decide +kernel
  rw [lost] at kept
  cases kept

end Literal

end ConstantDump
