import ConstantDump.Text.Unescape
import Mathlib.Data.List.Forall2
import Mathlib.Data.List.SplitBy

/-!
What escapes a text can be written with. `Writes` lists the ways to write one byte or one
character, whichever stands next to it.

* `FirstDigits.takeDigits_eq`: a number of full width ends there, whatever comes after it;
* `items_append`: what is written item by item is read item by item;
* `ofItemsAfter_eq`: a text has the longest runs of bytes, each read as a whole, between the
  characters;
* `unescape_flatten`: both together, and the texts that come back as they were.
-/

namespace ConstantDump.Text

/-! ## Ways to write an item -/

structure Denotes (base : Nat) (digits : Text) (n : Nat) : Prop where
  valid : digits.all (isDigitOf base) = true
  value : valueOf base digits = n

instance (base : Nat) (digits : Text) (n : Nat) : Decidable (Denotes base digits n) :=
  decidable_of_iff (digits.all (isDigitOf base) = true ∧ valueOf base digits = n)
    ⟨fun h => ⟨h.1, h.2⟩, fun h => ⟨h.valid, h.value⟩⟩

def simpleEscapes : List (Char × Char) :=
  [('n', '\n'), ('t', '\t'), ('r', '\r'), ('a', '\x07'), ('b', '\x08'), ('f', '\x0c'),
    ('v', '\x0b'), ('\\', '\\'), ('\'', '\''), ('"', '"'), ('?', '?')]

/-- Some text writes an item: a character other than a backslash itself, or an escape. -/
inductive Writes : Item → Text → Prop
  | plain (c : Char) (h : c ≠ '\\') : Writes (.char c) [c]
  | octal (byte : UInt8) (digits : Text) (width : digits.length = 3)
      (h : Denotes 8 digits byte.toNat) : Writes (.byte byte) ('\\' :: digits)
  | hex (byte : UInt8) (digits : Text) (width : digits.length = 2)
      (h : Denotes 16 digits byte.toNat) : Writes (.byte byte) ('\\' :: 'x' :: digits)
  | short (c : Char) (digits : Text) (width : digits.length = 4)
      (h : Denotes 16 digits c.toNat) : Writes (.char c) ('\\' :: 'u' :: digits)
  | long (c : Char) (digits : Text) (width : digits.length = 8)
      (h : Denotes 16 digits c.toNat) : Writes (.char c) ('\\' :: 'U' :: digits)
  | braced (c : Char) (digits : Text) (some_digit : digits ≠ []) (width : digits.length ≤ 6)
      (h : Denotes 16 digits c.toNat) :
      Writes (.char c) ('\\' :: 'u' :: '{' :: (digits ++ ['}']))
  | simple (letter c : Char) (h : (letter, c) ∈ simpleEscapes) :
      Writes (.char c) ['\\', letter]

/-! ## Reading one item -/

/-- The digits that a number takes from a text: no more than its width, and if they are fewer, no
digit follows. -/
structure FirstDigits (base width : Nat) (digits rest : Text) : Prop where
  valid : digits.all (isDigitOf base) = true
  short : digits.length ≤ width
  ends : digits.length = width ∨ ∀ d ∈ rest.head?, isDigitOf base d = false

theorem FirstDigits.of_full {base width : Nat} {digits : Text}
    (valid : digits.all (isDigitOf base) = true) (full : digits.length = width) (rest : Text) :
    FirstDigits base width digits rest :=
  ⟨valid, Nat.le_of_eq full, .inl full⟩

/-- A number ends at its full width, or before that at what is no digit. -/
theorem FirstDigits.takeDigits_eq {base width : Nat} {digits rest : Text}
    (h : FirstDigits base width digits rest) : takeDigits base width (digits ++ rest) = digits := by
  have stop : (rest.take (width - digits.length)).takeWhile (isDigitOf base) = [] := by
    rcases h.ends with full | other
    · simp [full]
    · cases rest with
      | nil => simp
      | cons d rest =>
        have no_digit : isDigitOf base d = false := other d rfl
        cases width - digits.length with
        | zero => rfl
        | succ k => simp [no_digit]
  rw [takeDigits, List.take_append, List.take_of_length_le h.short,
    List.takeWhile_append_of_pos (List.all_eq_true.1 h.valid), stop, List.append_nil]

/-! What each letter makes of the digits behind it, be they enough or not. -/

section

variable {digits rest : Text}

theorem escape_octalDigits {letter : Char} (octal : isDigitOf 8 letter = true)
    (h : FirstDigits 8 2 digits rest) :
    escape letter (digits ++ rest) = (numeric (valueOf 8 (letter :: digits)), rest) := by
  unfold escape
  rw [if_pos octal]
  simp [h.takeDigits_eq]

theorem escape_hexDigits (h : FirstDigits 16 2 digits rest) :
    escape 'x' (digits ++ rest) =
      (if digits = [] then verbatim ['\\', 'x'] else numeric (valueOf 16 digits), rest) := by
  unfold escape
  rw [if_neg (by decide), if_pos rfl]
  simp [h.takeDigits_eq]

theorem escape_longDigits (h : FirstDigits 16 8 digits rest) :
    escape 'U' (digits ++ rest) = (fixedCodePoint 'U' 8 digits, rest) := by
  unfold escape
  rw [if_neg (by decide), if_neg (by decide), if_pos rfl]
  simp [h.takeDigits_eq]

theorem escape_shortDigits (h : FirstDigits 16 4 digits rest)
    (unbraced : (digits ++ rest).head? ≠ some '{') :
    escape 'u' (digits ++ rest) = (fixedCodePoint 'u' 4 digits, rest) := by
  unfold escape
  rw [if_neg (by decide), if_neg (by decide), if_neg (by decide), if_pos rfl]
  split
  · rename_i inner brace
    exact absurd (by rw [brace]; rfl) unbraced
  · simp [h.takeDigits_eq]

theorem escape_closed (h : FirstDigits 16 6 digits ('}' :: rest)) :
    escape 'u' ('{' :: (digits ++ '}' :: rest)) = (bracedCodePoint digits, rest) := by
  unfold escape
  rw [if_neg (by decide), if_neg (by decide), if_neg (by decide), if_pos rfl]
  simp [h.takeDigits_eq]

theorem escape_unclosed (h : FirstDigits 16 6 digits rest) (unclosed : rest.head? ≠ some '}') :
    escape 'u' ('{' :: (digits ++ rest)) = (verbatim (['\\', 'u', '{'] ++ digits), rest) := by
  unfold escape
  rw [if_neg (by decide), if_neg (by decide), if_neg (by decide), if_pos rfl]
  simp only [h.takeDigits_eq, List.drop_left]
  split
  · exact absurd rfl unclosed
  · rfl

/-- A brace is no digit, so no number begins with one. -/
theorem head?_ne_brace (valid : digits.all (isDigitOf 16) = true) (some_digit : digits ≠ [])
    (rest : Text) : (digits ++ rest).head? ≠ some '{' := by
  cases digits with
  | nil => exact absurd rfl some_digit
  | cons d digits =>
    rintro ⟨⟩
    exact absurd (List.all_eq_true.1 valid '{' List.mem_cons_self) (by decide)

/-- A number in braces ends before the closing one. -/
theorem FirstDigits.of_closed (valid : digits.all (isDigitOf 16) = true)
    (short : digits.length ≤ 6) (rest : Text) : FirstDigits 16 6 digits ('}' :: rest) := by
  refine ⟨valid, short, .inr ?_⟩
  rintro d ⟨⟩
  decide

end

theorem numeric_toNat (byte : UInt8) : numeric byte.toNat = [.byte byte] := by
  rw [numeric, if_pos byte.toNat_lt, UInt8.ofNat_toNat]

theorem escape_octal {byte : UInt8} {d : Char} {digits : Text} (width : digits.length = 2)
    (h : Denotes 8 (d :: digits) byte.toNat) (rest : Text) :
    escape d (digits ++ rest) = ([.byte byte], rest) := by
  obtain ⟨first, others⟩ := Bool.and_eq_true_iff.1 (List.all_cons ▸ h.valid)
  rw [escape_octalDigits first (.of_full others width rest), h.value, numeric_toNat]

theorem escape_hex {byte : UInt8} {digits : Text} (width : digits.length = 2)
    (h : Denotes 16 digits byte.toNat) (rest : Text) :
    escape 'x' (digits ++ rest) = ([.byte byte], rest) := by
  have some_digit : digits ≠ [] := by
    rintro rfl
    cases width
  rw [escape_hexDigits (.of_full h.valid width rest), if_neg some_digit, h.value,
    numeric_toNat]

theorem fixedCodePoint_of_denotes {c : Char} {width : Nat} {digits : Text}
    (full : digits.length = width) (h : Denotes 16 digits c.toNat) (letter : Char) :
    fixedCodePoint letter width digits = [.char c] := by
  rw [fixedCodePoint, if_pos full, h.value, scalar?_toNat]

theorem escape_long {c : Char} {digits : Text} (width : digits.length = 8)
    (h : Denotes 16 digits c.toNat) (rest : Text) :
    escape 'U' (digits ++ rest) = ([.char c], rest) := by
  rw [escape_longDigits (.of_full h.valid width rest), fixedCodePoint_of_denotes width h]

theorem escape_short {c : Char} {digits : Text} (width : digits.length = 4)
    (h : Denotes 16 digits c.toNat) (rest : Text) :
    escape 'u' (digits ++ rest) = ([.char c], rest) := by
  have some_digit : digits ≠ [] := by
    rintro rfl
    cases width
  rw [escape_shortDigits (.of_full h.valid width rest) (head?_ne_brace h.valid some_digit rest),
    fixedCodePoint_of_denotes width h]

theorem escape_braced {c : Char} {digits : Text} (some_digit : digits ≠ [])
    (width : digits.length ≤ 6) (h : Denotes 16 digits c.toNat) (rest : Text) :
    escape 'u' ('{' :: (digits ++ '}' :: rest)) = ([.char c], rest) := by
  rw [escape_closed (.of_closed h.valid width rest), bracedCodePoint, if_neg some_digit, h.value,
    scalar?_toNat]

theorem escape_simple {letter c : Char} (h : (letter, c) ∈ simpleEscapes) (rest : Text) :
    escape letter rest = ([.char c], rest) := by
  have apart : ∀ pair ∈ simpleEscapes, isDigitOf 8 pair.1 = false ∧ pair.1 ≠ 'x' ∧
      pair.1 ≠ 'U' ∧ pair.1 ≠ 'u' ∧ simpleEscape? pair.1 = some pair.2 := by
    decide
  obtain ⟨octal, hex, long, short, value⟩ := apart (letter, c) h
  simp [escape, octal, hex, long, short, value]

/-! ## Reading item by item -/

/-- Where a text is read on character by character, no backslash is there. -/
theorem ne_backslash {c : Char} {rest : Text} (single : c = '\\' → rest = [] → False)
    (escape : ∀ letter later, c = '\\' → rest = letter :: later → False) : c ≠ '\\' := by
  intro backslash
  cases rest with
  | nil => exact single backslash rfl
  | cons letter later => exact escape letter later backslash rfl

/-- What writes an item is read as that item, whatever comes after it. -/
theorem items_writes_append {item : Item} {t : Text} (h : Writes item t) (rest : Text) :
    items (t ++ rest) = item :: items rest := by
  cases h with
  | plain c h => simp [items, h]
  | octal byte digits width h =>
    cases digits with
    | nil => cases width
    | cons d digits =>
      have two : digits.length = 2 := by simpa using width
      simp [items, escape_octal two h]
  | hex byte digits width h => simp [items, escape_hex width h]
  | short c digits width h => simp [items, escape_short width h]
  | long c digits width h => simp [items, escape_long width h]
  | braced c digits some_digit width h => simp [items, escape_braced some_digit width h]
  | simple letter c h => simp [items, escape_simple h]

theorem items_append {written : List Item} {texts : List Text}
    (h : List.Forall₂ Writes written texts) (rest : Text) :
    items (texts.flatten ++ rest) = written ++ items rest := by
  induction h with
  | nil => rfl
  | cons one others ih =>
    rw [List.flatten_cons, List.append_assoc, items_writes_append one, ih, List.cons_append]

/-! ## Runs of bytes -/

/-- Whether two items that follow one another belong to one run. -/
def bothBytes : Item → Item → Bool
  | .byte _, .byte _ => true
  | _, _ => false

def byte? : Item → Option UInt8
  | .byte b => some b
  | .char _ => none

/-- The text of a run: a character, or bytes read as a whole. -/
def ofRun : List Item → Text
  | [.char c] => [c]
  | run => ofBytes (run.filterMap byte?)

theorem ofBytes_encode (t : Text) : ofBytes (Utf8.encode t) = t := by
  rw [ofBytes, Utf8.decode_encode, Option.getD_some]

theorem ofBytes_nil : ofBytes [] = [] := ofBytes_encode []

theorem ofRun_bytes (run : List UInt8) : ofRun (run.map Item.byte) = ofBytes run := by
  have bytes : (run.map Item.byte).filterMap byte? = run := by
    rw [List.filterMap_map]
    exact List.filterMap_some
  unfold ofRun
  split
  · rename_i c single
    obtain ⟨b, -, no_byte⟩ := List.map_eq_singleton_iff.1 single
    cases no_byte
  · rw [bytes]

/-- Bytes that follow one another are one run. -/
theorem flatMap_ofRun_bytes (run : List UInt8) :
    ((run.map Item.byte).splitBy bothBytes).flatMap ofRun = ofBytes run := by
  by_cases empty : run = []
  · subst empty
    exact ofBytes_nil.symm
  · have chain : (run.map Item.byte).IsChain fun a b => bothBytes a b := by
      rw [List.isChain_map]
      exact (List.pairwise_of_forall fun _ _ => rfl).isChain
    rw [List.splitBy_of_isChain (by simpa using empty) chain]
    simp [ofRun_bytes]

/-- A character ends the run before it, and begins none. -/
theorem ofItemsAfter_eq (run : List UInt8) (rest : List Item) :
    ofItemsAfter run rest = ((run.map Item.byte ++ rest).splitBy bothBytes).flatMap ofRun := by
  induction rest generalizing run with
  | nil => rw [ofItemsAfter, List.append_nil, flatMap_ofRun_bytes]
  | cons item rest ih =>
    cases item with
    | byte b => rw [ofItemsAfter, ih, List.map_append, List.append_assoc]; rfl
    | char c =>
      have before : ∀ x ∈ (run.map Item.byte).getLast?, bothBytes x (.char c) = false := by
        intro x _
        cases x <;> rfl
      have after : ∀ x ∈ [Item.char c].getLast?, ∀ y ∈ rest.head?, bothBytes x y = false := by
        rintro x ⟨⟩ y -
        rfl
      have single : ([Item.char c] ++ rest).splitBy bothBytes =
          [.char c] :: rest.splitBy bothBytes := by
        rw [List.splitBy_append after]
        rfl
      rw [ofItemsAfter, ih, List.splitBy_append_cons rest before, List.flatMap_append,
        flatMap_ofRun_bytes]
      show _ = ofBytes run ++ (([Item.char c] ++ rest).splitBy bothBytes).flatMap ofRun
      rw [single]
      rfl

theorem ofItemsAfter_bytes (run bytes : List UInt8) (rest : List Item) :
    ofItemsAfter run (bytes.map Item.byte ++ rest) = ofItemsAfter (run ++ bytes) rest := by
  induction bytes generalizing run with
  | nil => simp
  | cons b bytes ih =>
    rw [List.map_cons, List.cons_append, ofItemsAfter, ih, List.append_assoc]
    rfl

/-! ## Texts that come back -/

/-- Some text writes a character: as one item, or byte by byte in UTF-8. -/
inductive Spells (c : Char) : Text → Prop
  | whole (t : Text) (h : Writes (.char c) t) : Spells c t
  | bytes (texts : List Text)
      (h : List.Forall₂ Writes ((String.utf8EncodeChar c).map .byte) texts) :
      Spells c texts.flatten

/-- Bytes that are still open hold whole characters, so what is spelled next does not change
how they are read. -/
theorem ofItemsAfter_spelled {s : Text} {texts : List Text} (h : List.Forall₂ Spells s texts)
    (before : Text) :
    ofItemsAfter (Utf8.encode before) (items texts.flatten) = before ++ s := by
  induction h generalizing before with
  | nil => simp [items, ofItemsAfter, ofBytes_encode]
  | @cons c t s texts spelled others ih =>
    cases spelled with
    | whole t one =>
      have next := ih []
      rw [Utf8.encode_nil] at next
      rw [List.flatten_cons, items_writes_append one, ofItemsAfter, next, ofBytes_encode]
      rfl
    | bytes parts each =>
      have longer : Utf8.encode before ++ String.utf8EncodeChar c =
          Utf8.encode (before ++ [c]) := by
        simp [Utf8.encode]
      rw [List.flatten_cons, items_append each, ofItemsAfter_bytes, longer, ih]
      simp

/-- What is written item by item stands for its runs, and a text that is written character by
character comes back. -/
theorem unescape_flatten :
    (∀ (written : List Item) (texts : List Text), List.Forall₂ Writes written texts →
      unescape texts.flatten = (written.splitBy bothBytes).flatMap ofRun) ∧
    ∀ (s : Text) (texts : List Text), List.Forall₂ Spells s texts →
      unescape texts.flatten = s := by
  constructor
  · intro written texts h
    have read : items texts.flatten = written := by
      have whole := items_append h []
      rwa [List.append_nil, items, List.append_nil] at whole
    rw [unescape, ofItems, read, ofItemsAfter_eq]
    rfl
  · intro s texts h
    exact ofItemsAfter_spelled h []

/-- A run of UTF-8, one that is not, and each kind of escape beside a digit. -/
theorem unescape_flatten_runs :
    (∃ texts, List.Forall₂ Writes
        [.char 'c', .byte 0xC3, .byte 0xA9, .char '0', .byte 0xC3, .byte 0xFF, .char '\n',
          .char 'é', .char '0', .char '😀', .char '!'] texts ∧
      texts.flatten = "c\\303\\xa90\\303\\xFF\\n\\u00e90\\U0001F600\\u\x7b21\x7d".toList ∧
      unescape texts.flatten = "cé0Ãÿ\né0😀!".toList) ∧
    ∃ texts, List.Forall₂ Spells "né\\".toList texts ∧
      texts.flatten = "n\\303\\251\\u005c".toList ∧
      unescape texts.flatten = "né\\".toList := by
  have mixed : List.Forall₂ Writes
      [.char 'c', .byte 0xC3, .byte 0xA9, .char '0', .byte 0xC3, .byte 0xFF, .char '\n',
        .char 'é', .char '0', .char '😀', .char '!'] _ :=
    .cons (.plain 'c' (by decide)) <| .cons (.octal 0xC3 "303".toList rfl (by decide)) <|
    .cons (.hex 0xA9 "a9".toList rfl (by decide)) <| .cons (.plain '0' (by decide)) <|
    .cons (.octal 0xC3 "303".toList rfl (by decide)) <|
    .cons (.hex 0xFF "FF".toList rfl (by decide)) <| .cons (.simple 'n' '\n' (by decide)) <|
    .cons (.short 'é' "00e9".toList rfl (by decide)) <| .cons (.plain '0' (by decide)) <|
    .cons (.long '😀' "0001F600".toList rfl (by decide)) <|
    .cons (.braced '!' "21".toList (by decide) (by decide) (by decide)) .nil
  have spelled : List.Forall₂ Spells "né\\".toList _ :=
    .cons (.whole _ (.plain 'n' (by decide))) <|
    .cons (.bytes _ (.cons (.octal 0xC3 "303".toList rfl (by decide)) <|
      .cons (.octal 0xA9 "251".toList rfl (by decide)) .nil)) <|
    .cons (.whole _ (.short '\\' "005c".toList rfl (by decide))) .nil
  exact ⟨⟨_, mixed, rfl, (unescape_flatten.1 _ _ mixed).trans (by decide +kernel)⟩,
    _, spelled, rfl, unescape_flatten.2 _ _ spelled⟩

end ConstantDump.Text
