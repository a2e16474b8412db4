import ConstantDump.Bracket
import ConstantDump.Proofs.Text.Malformed
import ConstantDump.Text.Quoted

/-!
Texts as they are shown between quotes. `Shows` lists the ways to show a character; which characters
beyond ASCII have a form of their own is left open there.

* `writes_codePointEscape`: a code point in braces is read as its character;
* `shows_quoteChar`: the forms that are chosen are among those of `Shows`;
* `unescape_shown_iff`: a shown text is read as the text itself exactly when no null character
  stands directly before an octal digit.
-/

namespace ConstantDump.Text

def HasShortEscape (quote c : Char) : Prop := c ∈ ['\x00', '\t', '\r', '\n', '\\', quote]

instance (quote c : Char) : Decidable (HasShortEscape quote c) :=
  inferInstanceAs (Decidable (_ ∈ _))

/-- Some text shows a character between quotes of the given kind. What has a short escape is shown
by that. Anything else is shown as it is, or by its code point if it is no visible character of
ASCII. -/
inductive Shows (quote : Char) : Char → Text → Prop
  | null : Shows quote '\x00' ['\\', '0']
  | short (letter c : Char) (h : (letter, c) ∈ [('t', '\t'), ('r', '\r'), ('n', '\n')]) :
      Shows quote c ['\\', letter]
  | sheltered (c : Char) (h : c = '\\' ∨ c = quote) : Shows quote c ['\\', c]
  | plain (c : Char) (h : ¬ HasShortEscape quote c) : Shows quote c [c]
  | codePoint (c : Char) (h : ¬ HasShortEscape quote c)
      (invisible : c.toNat < 0x20 ∨ 0x7E < c.toNat) : Shows quote c (codePointEscape c)

def NullsApart (t : Text) : Prop :=
  t.IsChain fun c d => c = '\x00' → isDigitOf 8 d = false

instance (t : Text) : Decidable (NullsApart t) := inferInstanceAs (Decidable (List.IsChain _ t))

theorem nullsApart_cons {c : Char} {t : Text} :
    NullsApart (c :: t) ↔
      (c = '\x00' → ∀ d ∈ t.head?, isDigitOf 8 d = false) ∧ NullsApart t := by
  rw [NullsApart, List.isChain_cons]
  exact and_congr_left fun _ => ⟨fun h null d mem => h d mem null, fun h d mem null => h null d mem⟩

/-! ## Code points in braces -/

theorem valueOf_concat (base : Nat) (digits : Text) (c : Char) :
    valueOf base (digits ++ [c]) = valueOf base digits * base + (digitValue? c).getD 0 := by
  simp [valueOf]

theorem digitValue?_digitChar {n : Nat} (h : n < 16) : digitValue? n.digitChar = some n := by
  have each : ∀ n < 16, digitValue? n.digitChar = some n := by decide
  exact each n h

/-- A number in base sixteen has digits that denote it. -/
theorem denotes_toDigits (n : Nat) : Denotes 16 (Nat.toDigits 16 n) n := by
  have digit {k : Nat} (h : k < 16) : isDigitOf 16 k.digitChar = true := by
    simp [isDigitOf, digitValue?_digitChar h, h]
  induction n using Nat.strongRecOn with
  | ind n ih =>
    by_cases small : n < 16
    · rw [Nat.toDigits_of_lt_base small]
      exact ⟨by simp [digit small], by simp [valueOf, digitValue?_digitChar small]⟩
    · have less : n % 16 < 16 := Nat.mod_lt n (by decide)
      obtain ⟨valid, value⟩ := ih (n / 16) (Nat.div_lt_self (by omega) (by decide))
      rw [Nat.toDigits_of_base_le (by decide) (Nat.le_of_not_lt small)]
      refine ⟨by simpa [digit less] using valid, ?_⟩
      rw [valueOf_concat, value, digitValue?_digitChar less, Option.getD_some]
      omega

/-- No code point needs more than six digits. -/
theorem writes_codePointEscape (c : Char) : Writes (.char c) (codePointEscape c) := by
  have room : c.toNat < 16 ^ 6 := by
    rcases c.valid with low | ⟨-, high⟩
    · exact Nat.lt_trans low (by decide)
    · exact Nat.lt_trans high (by decide)
  have width : (Nat.toDigits 16 c.toNat).length ≤ 6 :=
    (Nat.length_toDigits_le_iff (by decide) (by decide)).2 room
  have shape : codePointEscape c =
      '\\' :: 'u' :: '{' :: (Nat.toDigits 16 c.toNat ++ ['}']) := by simp [codePointEscape]
  rw [shape]
  exact .braced c _ Nat.toDigits_ne_nil width (denotes_toDigits c.toNat)

/-! ## One character -/

theorem invisible_of_chosen {c : Char} (h : (isCombining c || isUnprintable c) = true) :
    c.toNat < 0x20 ∨ 0x7E < c.toNat := by
  rcases Bool.or_eq_true_iff.1 h with combining | unprintable
  · simp only [isCombining, isGraphemeExtend, Bool.and_eq_true, decide_eq_true_eq] at combining
    omega
  · unfold isUnprintable at unprintable
    split at unprintable
    · simp only [Bool.or_eq_true, decide_eq_true_eq, beq_iff_eq] at unprintable
      omega
    · omega

theorem shows_quoteChar (quote c : Char) : Shows quote c (quoteChar quote c) := by
  by_cases null : c = '\x00'
  · subst null
    exact .null
  by_cases tab : c = '\t'
  · subst tab
    exact .short 't' '\t' (by decide)
  by_cases carriage : c = '\r'
  · subst carriage
    exact .short 'r' '\r' (by decide)
  by_cases feed : c = '\n'
  · subst feed
    exact .short 'n' '\n' (by decide)
  by_cases sheltered : c = '\\' ∨ c = quote
  · simp only [quoteChar, null, tab, carriage, feed, sheltered, ↓reduceIte]
    exact .sheltered c sheltered
  obtain ⟨backslash, other⟩ := not_or.1 sheltered
  have none : ¬ HasShortEscape quote c := by
    simp [HasShortEscape, null, tab, carriage, feed, backslash, other]
  by_cases chosen : (isCombining c || isUnprintable c) = true
  · simp only [quoteChar, null, tab, carriage, feed, sheltered, chosen, ↓reduceIte]
    exact .codePoint c none (invisible_of_chosen chosen)
  · simp only [quoteChar, null, tab, carriage, feed, sheltered, chosen, ↓reduceIte]
    exact .plain c none

theorem shows_quoteChars (quote : Char) (t : Text) :
    List.Forall₂ (Shows quote) t (t.map (quoteChar quote)) :=
  List.forall₂_map_right_iff.2 (List.forall₂_same.2 fun c _ => shows_quoteChar quote c)

variable {quote : Char}

theorem Shows.eq_of_null (hq : Bracket.isQuote quote = true) {t : Text}
    (h : Shows quote '\x00' t) : t = ['\\', '0'] := by
  have special : HasShortEscape quote '\x00' := List.mem_cons_self
  cases h with
  | null => rfl
  | short letter _ h => simp at h
  | sheltered _ h =>
    rcases h with backslash | rfl
    · cases backslash
    · cases hq
  | plain _ h => exact absurd special h
  | codePoint _ h _ => exact absurd special h

/-- All forms but that of the null character are read the same way whatever follows them. -/
theorem Shows.writes (hq : Bracket.isQuote quote = true) {c : Char} {t : Text}
    (h : Shows quote c t) (null : c ≠ '\x00') : Writes (.char c) t := by
  have quotes : quote = '"' ∨ quote = '\'' := Bracket.isQuote_iff.1 hq
  cases h with
  | null => exact absurd rfl null
  | short letter _ h =>
    have among : [('t', '\t'), ('r', '\r'), ('n', '\n')] ⊆ simpleEscapes := by decide
    exact .simple letter c (among h)
  | sheltered _ h =>
    refine .simple c c ?_
    rcases h with rfl | rfl
    · decide
    · rcases quotes with rfl | rfl <;> decide
  | plain _ h =>
    refine .plain c ?_
    rintro rfl
    exact h (by simp [HasShortEscape])
  | codePoint _ h _ => exact writes_codePointEscape c

/-- The octal digits are visible characters of ASCII. -/
theorem range_of_octal {c : Char} (h : isDigitOf 8 c = true) : 0x30 ≤ c.toNat ∧ c.toNat ≤ 0x39 := by
  unfold isDigitOf digitValue? at h
  split at h
  · rename_i range
    exact range
  · -- The value of a letter is ten or more.
    split at h
    · simp only [Option.any_some, decide_eq_true_eq] at h
      omega
    · split at h
      · simp only [Option.any_some, decide_eq_true_eq] at h
        omega
      · cases h

/-- An octal digit is shown as it is, and no other form begins with one. -/
theorem Shows.eq_or_no_digit (hq : Bracket.isQuote quote = true) {c : Char} {t : Text}
    (h : Shows quote c t) :
    isDigitOf 8 c = true ∧ t = [c] ∨
      isDigitOf 8 c = false ∧ ∀ rest, ∀ d ∈ (t ++ rest).head?, isDigitOf 8 d = false := by
  have escaped (tail rest : Text) : ∀ d ∈ ('\\' :: tail ++ rest).head?, isDigitOf 8 d = false := by
    rintro d ⟨⟩
    decide
  have quotes : quote = '"' ∨ quote = '\'' := Bracket.isQuote_iff.1 hq
  cases h with
  | null => exact .inr ⟨by decide, escaped _⟩
  | short letter _ h =>
    have none : ∀ pair ∈ [('t', '\t'), ('r', '\r'), ('n', '\n')], isDigitOf 8 pair.2 = false := by
      decide
    exact .inr ⟨none _ h, escaped _⟩
  | sheltered _ h =>
    refine .inr ⟨?_, escaped _⟩
    rcases h with rfl | rfl
    · decide
    · rcases quotes with rfl | rfl <;> decide
  | plain _ h =>
    by_cases digit : isDigitOf 8 c = true
    · exact .inl ⟨digit, rfl⟩
    · have other : isDigitOf 8 c = false := Bool.eq_false_iff.2 digit
      refine .inr ⟨other, ?_⟩
      rintro rest d ⟨⟩
      exact other
  | codePoint _ _ invisible =>
    refine .inr ⟨Bool.eq_false_iff.2 fun digit => ?_, escaped _⟩
    have visible := range_of_octal digit
    omega

/-! ## Reading shown texts -/

section

variable (hq : Bracket.isQuote quote = true) {s : Text} {texts : List Text}
  (h : List.Forall₂ (Shows quote) s texts)

include hq h

/-- A shown text begins with an octal digit just when the text does. -/
theorem head?_of_shown :
    (∀ d ∈ texts.flatten.head?, isDigitOf 8 d = false) ↔
      ∀ d ∈ s.head?, isDigitOf 8 d = false := by
  cases h with
  | nil => rfl
  | @cons c t s texts one others =>
    rcases one.eq_or_no_digit hq with ⟨-, rfl⟩ | ⟨other, shown⟩
    · rfl
    · refine iff_of_true (shown texts.flatten) ?_
      rintro d ⟨⟩
      exact other

/-- What a number takes from a shown text are characters of the text itself. -/
theorem exists_digits_of_shown (width : Nat) :
    ∃ digits s' texts', s = digits ++ s' ∧ texts.flatten = digits ++ texts'.flatten ∧
      List.Forall₂ (Shows quote) s' texts' ∧ FirstDigits 8 width digits texts'.flatten := by
  induction h generalizing width with
  | nil => exact ⟨[], [], [], rfl, rfl, .nil, rfl, Nat.zero_le _, .inr fun _ h => nomatch h⟩
  | @cons c t s texts one others ih =>
    cases width with
    | zero => exact ⟨[], _, _, rfl, rfl, .cons one others, rfl, Nat.le_refl 0, .inl rfl⟩
    | succ width =>
      rcases one.eq_or_no_digit hq with ⟨digit, rfl⟩ | ⟨-, other⟩
      · obtain ⟨digits, s', texts', rfl, flat, shown, valid, short, ends⟩ := ih width
        refine ⟨c :: digits, s', texts', rfl, by simp [flat], shown, ?_, Nat.succ_le_succ short,
          ends.imp_left fun full => by rw [List.length_cons, full]⟩
        rw [List.all_cons, digit, valid]
        rfl
      · exact ⟨[], _, _, rfl, rfl, .cons one others, rfl, Nat.zero_le _, .inr (other _)⟩

omit hq h in
/-- A null character takes the octal digits behind it. -/
theorem items_null {digits rest : Text} (first : FirstDigits 8 2 digits rest) :
    items ('\\' :: '0' :: (digits ++ rest)) =
      numeric (valueOf 8 ('0' :: digits)) ++ items rest := by
  rw [items, escape_octalDigits (by decide) first]

/-- Nulls that no digit follows are read as such, in one run with what was read before them. -/
theorem ofItemsAfter_shown (apart : NullsApart s) (before : Text) :
    ofItemsAfter (Utf8.encode before) (items texts.flatten) = before ++ s := by
  induction h generalizing before with
  | nil => simp [items, ofItemsAfter, ofBytes_encode]
  | @cons c t s texts one others ih =>
    obtain ⟨here, later⟩ := nullsApart_cons.1 apart
    by_cases null : c = '\x00'
    · subst null
      obtain rfl := one.eq_of_null hq
      have ends : FirstDigits 8 2 [] texts.flatten :=
        ⟨rfl, Nat.zero_le _, .inr ((head?_of_shown hq others).2 (here rfl))⟩
      have read : items (['\\', '0'] :: texts).flatten = .byte 0 :: items texts.flatten :=
        items_null ends
      have longer : Utf8.encode before ++ [0] = Utf8.encode (before ++ ['\x00']) := by
        rw [Utf8.encode_append]
        rfl
      rw [read, ofItemsAfter, longer, ih later, List.append_assoc]
      rfl
    · have next := ih later []
      rw [Utf8.encode_nil] at next
      rw [List.flatten_cons, items_writes_append (one.writes hq null), ofItemsAfter, next,
        ofBytes_encode]
      rfl

/-- A shown text is read as no more items than it has characters, and as fewer if a null character
takes digits with it. -/
theorem length_items_shown :
    (items texts.flatten).length ≤ s.length ∧
      (s.length ≤ (items texts.flatten).length → NullsApart s) := by
  -- A null character may take two digits at once, so the text behind it is not the next suffix.
  induction hn : s.length using Nat.strongRecOn generalizing s texts with
  | ind n ih =>
    subst hn
    cases h with
    | nil => exact ⟨by simp [items], fun _ => .nil⟩
    | @cons c t s texts one others =>
      by_cases null : c = '\x00'
      · subst null
        obtain rfl := one.eq_of_null hq
        obtain ⟨digits, s', texts', rfl, flat, shown, first⟩ := exists_digits_of_shown hq others 2
        have shorter : s'.length < ('\x00' :: (digits ++ s')).length := by
          simp only [List.length_cons, List.length_append]
          omega
        obtain ⟨few, apart⟩ := ih s'.length shorter shown rfl
        have read : items (['\\', '0'] :: texts).flatten =
            numeric (valueOf 8 ('0' :: digits)) ++ items texts'.flatten := by
          rw [← items_null first, ← flat]
          rfl
        have one_item := length_numeric_le (valueOf 8 ('0' :: digits))
        rw [read]
        simp only [List.length_append, List.length_cons]
        refine ⟨by omega, fun long => ?_⟩
        obtain rfl : digits = [] := List.length_eq_zero_iff.1 (by omega)
        have no_digit := first.ends.resolve_left (by decide)
        exact nullsApart_cons.2 ⟨fun _ => (head?_of_shown hq shown).1 no_digit, apart (by omega)⟩
      · obtain ⟨few, apart⟩ := ih s.length (by simp) others rfl
        rw [List.flatten_cons, items_writes_append (one.writes hq null)]
        simp only [List.length_cons]
        exact ⟨by omega, fun long =>
          nullsApart_cons.2 ⟨fun same => absurd same null, apart (by omega)⟩⟩

/-- A shown text comes back just when no null character stands directly before an octal digit. -/
theorem unescape_shown_iff : unescape texts.flatten = s ↔ NullsApart s := by
  constructor
  · intro same
    have long := length_unescape_le texts.flatten
    rw [same] at long
    exact (length_items_shown hq h).2 long
  · intro apart
    exact ofItemsAfter_shown hq h apart []

end

end ConstantDump.Text
