import ConstantDump.Proofs.Text.Escape

/-!
Backslashes that start no escape. `Malformed` lists what can stand behind one of them.

* `escape_of_malformed`: all that was looked at is given back, and reading goes on right behind it;
* `malformed_or_shortens`: any other backslash stands for less than it takes;
* `unescape_eq_self_iff`: so a text comes back as it is exactly when none of its backslashes starts
  an escape.
-/

namespace ConstantDump.Text

/-- The numbers that are no characters: surrogates, and all above U+10FFFF. -/
def NoCharacter (n : Nat) : Prop := 0xD800 ≤ n ∧ n ≤ 0xDFFF ∨ 0x10FFFF < n

theorem scalar?_eq_none_iff {n : Nat} : scalar? n = none ↔ NoCharacter n := by
  by_cases valid : n.isValidChar
  · have character : scalar? n = some (Char.ofNatAux n valid) := dif_pos valid
    refine iff_of_false (by rw [character]; rintro ⟨⟩) ?_
    unfold Nat.isValidChar at valid
    unfold NoCharacter
    omega
  · refine iff_of_true (dif_neg valid) ?_
    unfold Nat.isValidChar at valid
    unfold NoCharacter
    omega

/-- What stands behind a backslash that starts no escape. -/
inductive Malformed : Text → Prop
  | last : Malformed []
  | letter (letter : Char) (rest : Text) (octal : isDigitOf 8 letter = false)
      (number : letter ≠ 'x' ∧ letter ≠ 'u' ∧ letter ≠ 'U')
      (simple : ∀ c, (letter, c) ∉ simpleEscapes) : Malformed (letter :: rest)
  | hex (rest : Text) (h : FirstDigits 16 2 [] rest) : Malformed ('x' :: rest)
  | short (digits rest : Text) (h : FirstDigits 16 4 digits rest) (few : digits.length < 4)
      (unbraced : (digits ++ rest).head? ≠ some '{') : Malformed ('u' :: (digits ++ rest))
  | long (digits rest : Text) (h : FirstDigits 16 8 digits rest) (few : digits.length < 8) :
      Malformed ('U' :: (digits ++ rest))
  | unclosed (digits rest : Text) (h : FirstDigits 16 6 digits rest)
      (none : digits = [] ∨ rest.head? ≠ some '}') : Malformed ('u' :: '{' :: (digits ++ rest))
  | shortValue (digits rest : Text) (n : Nat) (width : digits.length = 4)
      (h : Denotes 16 digits n) (none : NoCharacter n) : Malformed ('u' :: (digits ++ rest))
  | longValue (digits rest : Text) (n : Nat) (width : digits.length = 8)
      (h : Denotes 16 digits n) (none : NoCharacter n) : Malformed ('U' :: (digits ++ rest))
  | bracedValue (digits rest : Text) (n : Nat) (width : digits.length ≤ 6)
      (h : Denotes 16 digits n) (none : NoCharacter n) :
      Malformed ('u' :: '{' :: (digits ++ '}' :: rest))

def NoEscapes (body : Text) : Prop := ∀ rest, '\\' :: rest <:+ body → Malformed rest

/-! ## One backslash -/

theorem simpleEscape?_eq_some_iff {letter c : Char} :
    simpleEscape? letter = some c ↔ (letter, c) ∈ simpleEscapes := by
  unfold simpleEscape?
  split <;> simp_all [simpleEscapes, eq_comm]

theorem fixedCodePoint_of_few {width : Nat} {digits : Text} (few : digits.length < width)
    (letter : Char) : fixedCodePoint letter width digits = verbatim ('\\' :: letter :: digits) := by
  rw [fixedCodePoint, if_neg (Nat.ne_of_lt few)]

theorem fixedCodePoint_of_noCharacter {n width : Nat} {digits : Text} (h : Denotes 16 digits n)
    (none : NoCharacter n) (full : digits.length = width) (letter : Char) :
    fixedCodePoint letter width digits = verbatim ('\\' :: letter :: digits) := by
  rw [fixedCodePoint, if_pos full, h.value, scalar?_eq_none_iff.2 none]

theorem not_mem_of_digits {digits : Text} (valid : digits.all (isDigitOf 16) = true) :
    '\\' ∉ digits := by
  intro mem
  exact absurd (List.all_eq_true.1 valid _ mem) (by decide)

/-- A backslash that starts no escape stands for itself, and so does all that was looked at to find
that out. None of this is another backslash. -/
theorem escape_of_malformed {letter : Char} {rest : Text} (h : Malformed (letter :: rest)) :
    ∃ used left, rest = used ++ left ∧ '\\' ∉ letter :: used ∧
      escape letter rest = (verbatim ('\\' :: letter :: used), left) := by
  cases h with
  | letter _ _ octal number simple =>
    obtain ⟨hex, short, long⟩ := number
    have unknown : simpleEscape? letter = none :=
      Option.eq_none_iff_forall_ne_some.2 fun c => mt simpleEscape?_eq_some_iff.1 (simple c)
    have backslash : letter ≠ '\\' := by
      rintro rfl
      exact simple '\\' (by decide)
    exact ⟨[], rest, rfl, by simpa using backslash.symm,
      by simp [escape, octal, hex, short, long, unknown]⟩
  | hex _ h => exact ⟨[], rest, rfl, by decide, escape_hexDigits h⟩
  | short digits left h few unbraced =>
    refine ⟨digits, left, rfl, by simpa using not_mem_of_digits h.valid, ?_⟩
    rw [escape_shortDigits h unbraced, fixedCodePoint_of_few few]
  | long digits left h few =>
    refine ⟨digits, left, rfl, by simpa using not_mem_of_digits h.valid, ?_⟩
    rw [escape_longDigits h, fixedCodePoint_of_few few]
  | unclosed digits left h none =>
    have apart : '\\' ∉ 'u' :: '{' :: digits := by simpa using not_mem_of_digits h.valid
    by_cases closed : left.head? = some '}'
    · -- Braces with nothing between them are passed as a whole.
      obtain rfl : digits = [] := none.resolve_right (not_not_intro closed)
      obtain ⟨behind, rfl⟩ := List.head?_eq_some_iff.1 closed
      exact ⟨['{', '}'], behind, rfl, by decide, escape_closed h⟩
    · exact ⟨'{' :: digits, left, rfl, apart, escape_unclosed h closed⟩
  | shortValue digits left n width h none =>
    have some_digit : digits ≠ [] := by
      rintro rfl
      cases width
    refine ⟨digits, left, rfl, by simpa using not_mem_of_digits h.valid, ?_⟩
    rw [escape_shortDigits (.of_full h.valid width left) (head?_ne_brace h.valid some_digit left),
      fixedCodePoint_of_noCharacter h none width]
  | longValue digits left n width h none =>
    refine ⟨digits, left, rfl, by simpa using not_mem_of_digits h.valid, ?_⟩
    rw [escape_longDigits (.of_full h.valid width left), fixedCodePoint_of_noCharacter h none width]
  | bracedValue digits left n width h none =>
    have kept : bracedCodePoint digits = verbatim (['\\', 'u', '{'] ++ digits ++ ['}']) := by
      unfold bracedCodePoint
      rw [h.value, scalar?_eq_none_iff.2 none, ite_self]
    refine ⟨'{' :: (digits ++ ['}']), left, by simp,
      by simpa using not_mem_of_digits h.valid, ?_⟩
    rw [escape_closed (.of_closed h.valid width left), kept]
    rfl

theorem length_numeric_le (n : Nat) : (numeric n).length ≤ 1 := by
  unfold numeric
  split
  · exact Nat.le_refl 1
  · cases scalar? n with
    | none => exact Nat.zero_le 1
    | some c => exact Nat.le_refl 1

/-- Every text begins with the digits of a number, be there any or not. -/
theorem exists_firstDigits (base width : Nat) (t : Text) :
    ∃ digits rest, t = digits ++ rest ∧ FirstDigits base width digits rest := by
  induction t generalizing width with
  | nil => exact ⟨[], [], rfl, rfl, Nat.zero_le _, .inr fun _ h => nomatch h⟩
  | cons c t ih =>
    cases width with
    | zero => exact ⟨[], c :: t, rfl, rfl, Nat.le_refl 0, .inl rfl⟩
    | succ width =>
      by_cases digit : isDigitOf base c = true
      · obtain ⟨digits, rest, rfl, valid, short, ends⟩ := ih width
        refine ⟨c :: digits, rest, rfl, ?_, Nat.succ_le_succ short, ?_⟩
        · rw [List.all_cons, digit, valid]
          rfl
        · exact ends.imp_left fun full => by rw [List.length_cons, full]
      · refine ⟨[], c :: t, rfl, rfl, Nat.zero_le _, .inr ?_⟩
        rintro d ⟨⟩
        exact Bool.eq_false_iff.2 digit

/-- A number of the width it has to have is a character, or the escape is malformed. -/
theorem fixedCodePoint_cases (letter : Char) {width : Nat} {digits : Text}
    (full : digits.length = width) :
    NoCharacter (valueOf 16 digits) ∨ (fixedCodePoint letter width digits).length = 1 := by
  unfold fixedCodePoint
  rw [if_pos full]
  cases value : scalar? (valueOf 16 digits) with
  | none => exact .inl (scalar?_eq_none_iff.1 value)
  | some c => exact .inr rfl

/-- What the backslash and the letter stand for, and what is left then, are fewer than before. -/
def Shortens (letter : Char) (rest : Text) : Prop :=
  (escape letter rest).1.length + (escape letter rest).2.length < rest.length + 2

theorem shortens_of_escape {letter : Char} {rest left : Text} {read : List Item}
    (h : escape letter rest = (read, left)) (less : read.length + left.length < rest.length + 2) :
    Shortens letter rest := by
  rw [Shortens, h]
  exact less

theorem malformed_or_shortens_hex (rest : Text) :
    Malformed ('x' :: rest) ∨ Shortens 'x' rest := by
  obtain ⟨digits, left, rfl, first⟩ := exists_firstDigits 16 2 rest
  by_cases none : digits = []
  · subst none
    exact .inl (.hex left first)
  · have one := length_numeric_le (valueOf 16 digits)
    refine .inr (shortens_of_escape (escape_hexDigits first) ?_)
    rw [if_neg none, List.length_append]
    omega

theorem malformed_or_shortens_long (rest : Text) :
    Malformed ('U' :: rest) ∨ Shortens 'U' rest := by
  obtain ⟨digits, left, rfl, first⟩ := exists_firstDigits 16 8 rest
  rcases Nat.lt_or_eq_of_le first.short with few | full
  · exact .inl (.long digits left first few)
  · rcases fixedCodePoint_cases 'U' full with none | one
    · exact .inl (.longValue digits left _ full ⟨first.valid, rfl⟩ none)
    · refine .inr (shortens_of_escape (escape_longDigits first) ?_)
      rw [one, List.length_append]
      omega

theorem malformed_or_shortens_short {rest : Text} (unbraced : rest.head? ≠ some '{') :
    Malformed ('u' :: rest) ∨ Shortens 'u' rest := by
  obtain ⟨digits, left, rfl, first⟩ := exists_firstDigits 16 4 rest
  rcases Nat.lt_or_eq_of_le first.short with few | full
  · exact .inl (.short digits left first few unbraced)
  · rcases fixedCodePoint_cases 'u' full with none | one
    · exact .inl (.shortValue digits left _ full ⟨first.valid, rfl⟩ none)
    · refine .inr (shortens_of_escape (escape_shortDigits first unbraced) ?_)
      rw [one, List.length_append]
      omega

theorem malformed_or_shortens_braced (inner : Text) :
    Malformed ('u' :: '{' :: inner) ∨ Shortens 'u' ('{' :: inner) := by
  obtain ⟨digits, left, rfl, first⟩ := exists_firstDigits 16 6 inner
  by_cases none : digits = [] ∨ left.head? ≠ some '}'
  · exact .inl (.unclosed digits left first none)
  · obtain ⟨some_digit, closed⟩ := not_or.1 none
    obtain ⟨behind, rfl⟩ := List.head?_eq_some_iff.1 (not_not.1 closed)
    cases value : scalar? (valueOf 16 digits) with
    | none =>
      exact .inl (.bracedValue digits behind _ first.short ⟨first.valid, rfl⟩
        (scalar?_eq_none_iff.1 value))
    | some c =>
      refine .inr (shortens_of_escape (escape_closed first) ?_)
      rw [bracedCodePoint, if_neg some_digit, value]
      simp only [List.length_cons, List.length_append, List.length_nil]
      omega

/-- A backslash that starts an escape stands for less than the escape takes. -/
theorem malformed_or_shortens (letter : Char) (rest : Text) :
    Malformed (letter :: rest) ∨ Shortens letter rest := by
  by_cases octal : isDigitOf 8 letter = true
  · have one := length_numeric_le (valueOf 8 (letter :: takeDigits 8 2 rest))
    refine .inr ?_
    simp only [Shortens, escape, octal, ↓reduceIte, List.length_drop]
    omega
  by_cases hex : letter = 'x'
  · subst hex
    exact malformed_or_shortens_hex rest
  by_cases long : letter = 'U'
  · subst long
    exact malformed_or_shortens_long rest
  by_cases short : letter = 'u'
  · subst short
    by_cases braced : rest.head? = some '{'
    · obtain ⟨inner, rfl⟩ := List.head?_eq_some_iff.1 braced
      exact malformed_or_shortens_braced inner
    · exact malformed_or_shortens_short braced
  cases simple : simpleEscape? letter with
  | none =>
    refine .inl (.letter letter rest (Bool.eq_false_iff.2 octal) ⟨hex, short, long⟩ ?_)
    intro c mem
    rw [simpleEscape?_eq_some_iff.2 mem] at simple
    cases simple
  | some c =>
    have read : escape letter rest = ([.char c], rest) :=
      escape_simple (simpleEscape?_eq_some_iff.1 simple) rest
    refine .inr (shortens_of_escape read ?_)
    simp only [List.length_cons, List.length_nil]
    omega

/-- No escape stands for more characters and bytes than it takes. -/
theorem length_escape_fst_le (letter : Char) (rest : Text) :
    (escape letter rest).1.length + (escape letter rest).2.length ≤ rest.length + 2 := by
  rcases malformed_or_shortens letter rest with bad | shorter
  · obtain ⟨used, left, rfl, -, read⟩ := escape_of_malformed bad
    rw [read]
    simp only [verbatim, List.length_map, List.length_cons, List.length_append]
    omega
  · exact Nat.le_of_lt shorter

/-! ## From one backslash to the next -/

theorem noEscapes_nil : NoEscapes [] := by
  intro rest h
  exact absurd (List.suffix_nil.1 h) (List.cons_ne_nil _ _)

/-- What holds no backslash may stand in front. -/
theorem noEscapes_append {u : Text} (h : '\\' ∉ u) (t : Text) :
    NoEscapes (u ++ t) ↔ NoEscapes t := by
  induction u with
  | nil => rfl
  | cons c u ih =>
    obtain ⟨here, later⟩ := not_or.1 (mt List.mem_cons.2 h)
    rw [← ih later]
    constructor
    · intro all rest suffix
      exact all rest (suffix.trans (List.suffix_cons ..))
    · intro all rest suffix
      rcases List.suffix_cons_iff.1 suffix with same | inside
      · exact absurd (List.cons.inj same).1 here
      · exact all rest inside

theorem noEscapes_cons {c : Char} (h : c ≠ '\\') (t : Text) : NoEscapes (c :: t) ↔ NoEscapes t :=
  noEscapes_append (u := [c]) (by simpa using h.symm) t

theorem noEscapes_backslash {rest : Text} :
    NoEscapes ('\\' :: rest) ↔ Malformed rest ∧ NoEscapes rest := by
  constructor
  · intro all
    refine ⟨all rest List.suffix_rfl, ?_⟩
    intro later suffix
    exact all later (suffix.trans (List.suffix_cons ..))
  · rintro ⟨here, later⟩ t suffix
    rcases List.suffix_cons_iff.1 suffix with same | inside
    · obtain ⟨-, rfl⟩ := List.cons.inj same
      exact here
    · exact later t inside

/-- Behind a malformed escape, the text goes on where that one ends. -/
theorem noEscapes_of_malformed {letter : Char} {used left : Text}
    (bad : Malformed (letter :: (used ++ left))) (apart : '\\' ∉ letter :: used) :
    NoEscapes ('\\' :: letter :: (used ++ left)) ↔ NoEscapes left := by
  rw [noEscapes_backslash, and_iff_right bad]
  exact noEscapes_append apart left

theorem items_of_noEscapes {body : Text} (h : NoEscapes body) : items body = verbatim body := by
  fun_induction items body with
  | case1 => rfl
  | case2 => rfl
  | case3 letter rest ih =>
    have bad : Malformed (letter :: rest) := (noEscapes_backslash.1 h).1
    obtain ⟨used, left, rfl, apart, read⟩ := escape_of_malformed bad
    rw [read] at ih ⊢
    rw [ih ((noEscapes_of_malformed bad apart).1 h)]
    simp [verbatim]
  | case4 c rest single escape ih =>
    have plain := ne_backslash single escape
    rw [ih ((noEscapes_cons plain rest).1 h)]
    rfl

theorem length_items_le (body : Text) : (items body).length ≤ body.length := by
  fun_induction items body with
  | case1 => exact Nat.le_refl 0
  | case2 => exact Nat.le_refl 1
  | case3 letter rest ih =>
    have here := length_escape_fst_le letter rest
    simp only [List.length_append, List.length_cons]
    omega
  | case4 c rest single escape ih =>
    simp only [List.length_cons]
    omega

/-- What is read as long as it is written has no escape in it. -/
theorem noEscapes_of_length {body : Text} (h : body.length ≤ (items body).length) :
    NoEscapes body := by
  fun_induction items body with
  | case1 => exact noEscapes_nil
  | case2 => exact noEscapes_backslash.2 ⟨.last, noEscapes_nil⟩
  | case3 letter rest ih =>
    have behind := length_items_le (escape letter rest).2
    simp only [List.length_append, List.length_cons] at h
    have bad : Malformed (letter :: rest) := by
      refine (malformed_or_shortens letter rest).resolve_right fun shorter => ?_
      unfold Shortens at shorter
      omega
    obtain ⟨used, left, rfl, apart, read⟩ := escape_of_malformed bad
    simp only [read] at ih
    simp only [read, verbatim, List.length_map, List.length_cons, List.length_append] at h
    exact (noEscapes_of_malformed bad apart).2 (ih (by omega))
  | case4 c rest single escape ih =>
    have plain := ne_backslash single escape
    simp only [List.length_cons] at h
    exact (noEscapes_cons plain rest).2 (ih (by omega))

/-! ## The text of the items -/

theorem ofItems_verbatim (t : Text) : ofItems (verbatim t) = t := by
  induction t with
  | nil => exact ofBytes_nil
  | cons c t ih =>
    have first : ofItems (verbatim (c :: t)) = ofBytes [] ++ c :: ofItems (verbatim t) := rfl
    rw [first, ih, ofBytes_nil, List.nil_append]

/-- A run of bytes has no more characters than bytes, in UTF-8 as in Latin-1. -/
theorem length_ofBytes_le (bytes : List UInt8) : (ofBytes bytes).length ≤ bytes.length := by
  unfold ofBytes
  cases decoded : Utf8.decode bytes with
  | none => simp
  | some t =>
    rw [Option.getD_some, Utf8.eq_encode_of_decode decoded]
    clear decoded
    induction t with
    | nil => exact Nat.le_refl 0
    | cons c t ih =>
      have some_byte : 0 < (String.utf8EncodeChar c).length := by
        rw [String.length_utf8EncodeChar]
        exact c.utf8Size_pos
      simp only [Utf8.encode, List.flatMap_cons, List.length_append, List.length_cons] at ih ⊢
      omega

theorem length_ofItemsAfter_le (run : List UInt8) (rest : List Item) :
    (ofItemsAfter run rest).length ≤ run.length + rest.length := by
  induction rest generalizing run with
  | nil => exact length_ofBytes_le run
  | cons item rest ih =>
    cases item with
    | byte b =>
      have longer := ih (run ++ [b])
      simp only [ofItemsAfter, List.length_append, List.length_cons, List.length_nil] at longer ⊢
      omega
    | char c =>
      have before := length_ofBytes_le run
      have after := ih []
      simp only [ofItemsAfter, List.length_append, List.length_cons, List.length_nil] at after ⊢
      omega

theorem length_unescape_le (body : Text) : (unescape body).length ≤ (items body).length := by
  have all := length_ofItemsAfter_le [] (items body)
  simpa [unescape, ofItems] using all

/-- A text comes back as it is exactly when none of its backslashes starts an escape: whatever was
read before it shows that an escape is malformed, none of it is lost, and each escape that is not
malformed leaves fewer characters. -/
theorem unescape_eq_self_iff (body : Text) : unescape body = body ↔ NoEscapes body := by
  constructor
  · intro same
    have long := length_unescape_le body
    rw [same] at long
    exact noEscapes_of_length long
  · intro none
    rw [unescape, items_of_noEscapes none, ofItems_verbatim]

-- Malformed escapes of every kind, each right behind the one before.
example :
    let body := "\\q\\xg\\u12\\uD800\\u\x7b12\\u\x7b\x7d\\u\x7b110000\x7d\\U001\\U00110000\\".toList
    unescape body = body := by decide +kernel

end ConstantDump.Text
