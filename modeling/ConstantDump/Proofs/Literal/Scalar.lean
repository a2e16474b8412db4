import ConstantDump.Literal.Form

/-!
Literals without parts and what they end in: a number in a digit, a quoted text in its
quote, a truth value in one of its letters. Main statement: none of them ends in a
parenthesis.
-/

namespace ConstantDump.Literal

def EndsInDigit (t : Text) : Prop := ∃ c, t.getLast? = some c ∧ c.isDigit = true

theorem EndsInDigit.of_suffix {t u : Text} (h : EndsInDigit u) (hs : u <:+ t) :
    EndsInDigit t := by
  obtain ⟨c, hc, hd⟩ := h
  obtain ⟨before, rfl⟩ := hs
  exact ⟨c, by simp [List.getLast?_append, hc], hd⟩

theorem endsInDigit_of_isDecimal {t : Text} (h : Text.isDecimal t = true) : EndsInDigit t := by
  simp only [Text.isDecimal, Bool.and_eq_true, decide_eq_true_eq, List.all_eq_true] at h
  obtain ⟨hne, hall⟩ := h
  exact ⟨t.getLast hne, List.getLast?_eq_some_getLast hne, hall _ (List.getLast_mem hne)⟩

theorem dropMinus_suffix (t : Text) : (dropMinus t).2 <:+ t := by
  unfold dropMinus
  split
  · exact List.suffix_cons ..
  · exact List.suffix_rfl

theorem endsInDigit_of_integer? {raw : Text} {n : Int} (h : integer? raw = some n) :
    EndsInDigit raw := by
  unfold integer? at h
  split at h
  rename_i hd
  split at h
  · rename_i hdec
    have hs := dropMinus_suffix raw
    rw [hd] at hs
    exact (endsInDigit_of_isDecimal hdec).of_suffix hs
  · cases h

theorem endsInDigit_of_exponent? {t : Text} {n : Int} (h : exponent? t = some n) :
    EndsInDigit t := by
  unfold exponent? at h
  split at h
  · split at h
    · rename_i hdec
      exact (endsInDigit_of_isDecimal hdec).of_suffix (List.suffix_cons ..)
    · cases h
  · split at h
    rename_i hd
    split at h
    · rename_i hdec
      have hs := dropMinus_suffix t
      rw [hd] at hs
      exact (endsInDigit_of_isDecimal hdec).of_suffix hs
    · cases h

theorem digits?_suffix {t digits rest : Text} (h : digits? t = some (digits, rest)) :
    rest <:+ t := by
  unfold digits? at h
  simp only at h
  split at h
  · cases h
  · cases h
    exact List.dropWhile_suffix _

theorem isPrefixOf?_suffix {p t rest : Text} (h : p.isPrefixOf? t = some rest) :
    rest <:+ t := by
  rw [Text.isPrefixOf?_eq_some_iff.1 h]
  exact List.suffix_append ..

theorem endsInDigit_of_float? {raw : Text} {x : Binary64} (h : float? raw = some x) :
    EndsInDigit raw := by
  unfold float? at h
  obtain ⟨⟨whole, r₁⟩, h₁, h⟩ := Option.bind_eq_some_iff.1 h
  obtain ⟨r₂, h₂, h⟩ := Option.bind_eq_some_iff.1 h
  obtain ⟨⟨fraction, r₃⟩, h₃, h⟩ := Option.bind_eq_some_iff.1 h
  obtain ⟨r₄, h₄, h⟩ := Option.bind_eq_some_iff.1 h
  obtain ⟨exponent, h₅, -⟩ := Option.bind_eq_some_iff.1 h
  have after_fraction : r₄ <:+ r₂ := (isPrefixOf?_suffix h₄).trans (digits?_suffix h₃)
  have after_whole : r₂ <:+ raw :=
    ((isPrefixOf?_suffix h₂).trans (digits?_suffix h₁)).trans (dropMinus_suffix raw)
  exact (endsInDigit_of_exponent? h₅).of_suffix (after_fraction.trans after_whole)

theorem quoted?_getLast? {raw : Text} {v : Value} (h : quoted? raw = some v) :
    ∃ q, raw.getLast? = some q ∧ Bracket.isQuote q = true := by
  cases raw with
  | nil => cases h
  | cons q rest =>
    simp only [quoted?] at h
    split at h
    · rename_i hq
      exact ⟨q, by simp [List.getLast?_cons, hq.2], hq.1⟩
    · cases h

theorem not_mem_of_dropWord? {word t : Text} {c : Char}
    (hc : ∀ letter ∈ word, Text.foldsTo letter c = false)
    (h : Text.dropWord? word t = some []) : c ∉ t := by
  induction word generalizing t with
  | nil =>
    obtain rfl : t = [] := by simpa [Text.dropWord?] using h
    simp
  | cons letter word ih =>
    cases t with
    | nil => simp
    | cons d t =>
      unfold Text.dropWord? at h
      split at h
      · rename_i hd
        have hne : c ≠ d := by
          rintro rfl
          rw [hc letter (by simp)] at hd
          cases hd
        have hrest := ih (fun l hl => hc l (List.mem_cons_of_mem _ hl)) h
        simp [hne, hrest]
      · cases h

/-- A truth value holds no character that is none of its letters. -/
theorem not_mem_of_truth? {raw : Text} {b : Bool} {c : Char}
    (hc : "truefalse".toList.any (Text.foldsTo · c) = false)
    (h : truth? raw = some b) : c ∉ raw := by
  have letters (word : String) (within : word.toList ⊆ "truefalse".toList) :
      ∀ letter ∈ word.toList, Text.foldsTo letter c = false :=
    fun letter mem => Bool.eq_false_iff.2 (List.any_eq_false.1 hc letter (within mem))
  unfold truth? at h
  split at h
  · rename_i hw
    exact not_mem_of_dropWord? (letters "true" (by decide)) (of_decide_eq_true hw)
  · split at h
    · rename_i hw
      exact not_mem_of_dropWord? (letters "false" (by decide)) (of_decide_eq_true hw)
    · cases h

/-- What does not end in a digit is no number. -/
theorem numbers_eq_none {raw : Text} {last : Char} (h : raw.getLast? = some last)
    (hd : last.isDigit = false) : integer? raw = none ∧ float? raw = none := by
  have hdigit : ¬ EndsInDigit raw := by
    rintro ⟨c, hc, digit⟩
    obtain rfl : last = c := Option.some.inj (h.symm.trans hc)
    rw [hd] at digit
    cases digit
  constructor
  · apply Option.eq_none_iff_forall_not_mem.2
    intro n hn
    exact hdigit (endsInDigit_of_integer? hn)
  · apply Option.eq_none_iff_forall_not_mem.2
    intro x hx
    exact hdigit (endsInDigit_of_float? hx)

/-- A literal without parts does not end in a parenthesis. -/
theorem scalar?_eq_none {raw : Text} (h : raw.getLast? = some ')') : scalar? raw = none := by
  obtain ⟨hi, hf⟩ := numbers_eq_none h rfl
  have hq : quoted? raw = none := by
    apply Option.eq_none_iff_forall_not_mem.2
    intro v hv
    obtain ⟨q, hl, hquote⟩ := quoted?_getLast? hv
    rw [h] at hl
    cases hl
    cases hquote
  have ht : truth? raw = none := by
    apply Option.eq_none_iff_forall_not_mem.2
    intro b hb
    exact not_mem_of_truth? (by decide) hb (List.mem_of_getLast? h)
  simp [scalar?, hi, hf, hq, ht]

end ConstantDump.Literal
