import ConstantDump.Proofs.Encoding.CodeUnits
import ConstantDump.Proofs.Literal.PlainCall

/-!
Strings that are put together from the values of single code units. Such a value is a
character where the unit is one on its own, and the unit's bytes where it is not.

* `joinAfter_eq_runText`: where characters cut the units, the text of the values is the text
  of all the bytes;
* `call_string_of_units`: a string of units has the text of the whole sequence, and none where
  the sequence has none; so the printed call of a text's units has that text.
-/

namespace ConstantDump

namespace CharacterType

/-- The value of a unit: a character, or else the bytes of the unit. -/
def valueOf (c : Option Char) (bytes : List UInt8) : Value :=
  match c with
  | some c => .char c
  | none => .bytes bytes

/-- A character between whole units can be taken out of the bytes of a string. -/
def Cuts (t : CharacterType) (width : Nat) (c : Char) (bytes : List UInt8) : Prop :=
  ∀ run rest : List UInt8, width ∣ run.length →
    t.runText (run ++ (bytes ++ rest)) =
      do return (← t.runText run) ++ c :: (← t.runText rest)

/-- The text of the units' values is the text of all their bytes. -/
theorem joinAfter_eq_runText {α : Type} (t : CharacterType) (width : Nat)
    (char? : α → Option Char) (bytes : α → List UInt8) (units : List α)
    (aligned : ∀ u ∈ units, width ∣ (bytes u).length)
    (cuts : ∀ u ∈ units, ∀ c, char? u = some c → t.Cuts width c (bytes u))
    (run : List UInt8) (hr : width ∣ run.length) :
    t.joinAfter run (units.map fun u => valueOf (char? u) (bytes u)) =
      t.runText (run ++ units.flatMap bytes) := by
  induction units generalizing run with
  | nil => simp [joinAfter]
  | cons u units ih =>
    rw [List.forall_mem_cons] at aligned cuts
    rw [List.map_cons, List.flatMap_cons]
    cases hu : char? u with
    | none =>
      have longer : width ∣ (run ++ bytes u).length := by
        rw [List.length_append]
        exact Nat.dvd_add hr aligned.1
      rw [valueOf, joinAfter, ih aligned.2 cuts.2 _ longer, List.append_assoc]
    | some c =>
      have rest := ih aligned.2 cuts.2 [] (Nat.dvd_zero width)
      rw [valueOf, joinAfter, rest, cuts.1 c hu run _ hr]
      rfl

/-! ## Units of one encoding -/

section

variable {encoding : Encoding}

theorem runText_string (bytes : List UInt8) :
    (CharacterType.string encoding).runText bytes =
      match encoding.decode bytes with
      | some t => .ok t
      | none => .error (.noText (CharacterType.string encoding).name) :=
  rfl

theorem cuts_string {bytes : List UInt8} {c : Char} (width : bytes.length = encoding.unitWidth)
    (h : encoding.decode bytes = some [c]) :
    (CharacterType.string encoding).Cuts encoding.unitWidth c bytes := by
  intro run rest aligned
  simp only [runText_string, Encoding.decode_cut aligned width h]
  cases encoding.decode run with
  | none => rfl
  | some before => cases encoding.decode rest <;> rfl

def bytesOf (encoding : Encoding) (unit : Int) : List UInt8 :=
  Encoding.toBytes encoding.unitWidth unit.toNat

theorem length_bytesOf (unit : Int) : (bytesOf encoding unit).length = encoding.unitWidth :=
  Encoding.length_toBytes ..

def unitChar? (encoding : Encoding) (unit : Int) : Option Char :=
  (encoding.decode (bytesOf encoding unit)).bind List.head?

theorem decode_bytesOf (unit : Int) :
    encoding.decode (bytesOf encoding unit) = (unitChar? encoding unit).map ([·]) := by
  rw [unitChar?]
  cases hd : encoding.decode (bytesOf encoding unit) with
  | none => rfl
  | some t =>
    obtain ⟨c, rfl⟩ := Encoding.eq_singleton_of_decode (length_bytesOf unit) hd
    rfl

/-- A number in range is a unit. -/
theorem call_unit {unit : Int} (h : 0 ≤ unit ∧ unit < Int.pow 256 encoding.unitWidth) :
    (CharacterType.unit encoding).call [.int unit] =
      .ok (valueOf (unitChar? encoding unit) (bytesOf encoding unit)) := by
  have fits : encoding.unitBytes? unit = some (bytesOf encoding unit) := if_pos h
  have value : (CharacterType.unit encoding).call [.int unit] =
      (CharacterType.unit encoding).unitValue encoding unit := rfl
  rw [value, unitValue, fits]
  simp only [decode_bytesOf]
  cases unitChar? encoding unit <;> rfl

theorem call_string (units : List Int) :
    (CharacterType.string encoding).call
        (units.map fun u => valueOf (unitChar? encoding u) (bytesOf encoding u)) =
      match encoding.decode (units.flatMap (bytesOf encoding)) with
      | some t => .ok (.str t)
      | none => .error (.noText (CharacterType.string encoding).name) := by
  have joined := joinAfter_eq_runText (.string encoding) encoding.unitWidth
    (unitChar? encoding) (bytesOf encoding) units
    (fun u _ => ⟨1, by rw [length_bytesOf, Nat.mul_one]⟩)
    (fun u _ c hc => cuts_string (length_bytesOf u) (by rw [decode_bytesOf, hc]; rfl))
    [] (Nat.dvd_zero _)
  rw [call, joined, List.nil_append, runText_string]
  cases encoding.decode (units.flatMap (bytesOf encoding)) <;> rfl

end

/-! ## Wide characters -/

theorem call_wide (unit : UInt16) :
    CharacterType.wide.call [.int unit.toNat] =
      .ok (valueOf (Text.scalar? unit.toNat) (Encoding.toBytes 2 unit.toNat)) := by
  have value : CharacterType.wide.call [.int unit.toNat] = wideValue unit.toNat := rfl
  have small : (unit.toNat : Int) < Int.pow 2 16 := by
    have := unit.toNat_lt
    show (unit.toNat : Int) < 65536
    omega
  rw [value, wideValue]
  simp only [Int.natCast_nonneg, ↓reduceIte, Int.toNat_natCast, small, and_self]
  cases Text.scalar? unit.toNat <;> rfl

theorem cuts_wideString {unit : UInt16} {c : Char} (h : Text.scalar? unit.toNat = some c) :
    CharacterType.wideString.Cuts 2 c (Encoding.toBytes 2 unit.toNat) := by
  intro run rest aligned
  have value : UInt16.ofNat (Encoding.ofBytes (Encoding.toBytes 2 unit.toNat)) = unit := by
    rw [Encoding.ofBytes_toBytes unit.toNat_lt, UInt16.ofNat_toNat]
  have cut := Encoding.decodeWide_cut (c := c) aligned (by rw [← value] at h; exact h) rest
  exact congrArg Except.ok cut

theorem call_wideString (units : List UInt16) :
    CharacterType.wideString.call (units.map fun u =>
      valueOf (Text.scalar? u.toNat) (Encoding.toBytes 2 u.toNat)) =
      .ok (.str (Utf16.decodeLenient units)) := by
  have joined := joinAfter_eq_runText .wideString 2 (fun u : UInt16 => Text.scalar? u.toNat)
    (fun u => Encoding.toBytes 2 u.toNat) units
    (fun u _ => ⟨1, by rw [Encoding.length_toBytes]⟩)
    (fun u _ c hc => cuts_wideString hc) [] (Nat.dvd_zero _)
  have even : (units.flatMap fun u => Encoding.toBytes 2 u.toNat).length % 2 = 0 := by
    rw [← List.flatMap_map, Encoding.length_flatMap_toBytes, Nat.mul_mod_left]
  have whole : CharacterType.wideString.runText
      (units.flatMap fun u => Encoding.toBytes 2 u.toNat) =
        .ok (Utf16.decodeLenient units) := by
    rw [runText, Encoding.decodeWide, Encoding.units16_toBytes, if_pos even, List.append_nil]
  rw [call, joined, List.nil_append, whole]
  rfl

/-! ## The whole sequence -/

theorem mapM_eq_ok {α β ε : Type} {f : α → Except ε β} {g : α → β} {xs : List α}
    (h : ∀ x ∈ xs, f x = .ok (g x)) : xs.mapM f = .ok (xs.map g) := by
  induction xs with
  | nil => rfl
  | cons x xs ih =>
    rw [List.forall_mem_cons] at h
    rw [List.mapM_cons, h.1, ih h.2]
    rfl

/-- The call that a text is printed as, unit by unit. -/
def printed (encoding : Encoding) (t : Text) : Text :=
  Literal.callText (CharacterType.string encoding).name <|
    (encoding.units t).map fun u : Nat =>
      Literal.callText (CharacterType.unit encoding).name [Text.ofInt u]

end CharacterType

namespace Literal

theorem plainName_unit (encoding : Encoding) : PlainName (CharacterType.unit encoding).name where
  plain := by
    have all_plain : (CharacterType.unit encoding).name.all
        (fun c => Bracket.isPlain c && c != ',') = true := by
      cases encoding <;> decide
    simpa using all_plain
  first := by cases encoding <;> exact ⟨'c', rfl, by decide⟩

theorem typeOf?_character (t : CharacterType) :
    typeOf? Types.characters t.name = some (.character t) := by
  cases t with
  | unit encoding => cases encoding <;> rfl
  | wide => rfl
  | string encoding => cases encoding <;> rfl
  | wideString => rfl

theorem construct_character {t : CharacterType} {arguments : List Value} {v : Value}
    (h : t.call arguments = .ok v) : construct Types.characters t.name arguments = v := by
  simp [construct, typeOf?_character, Constructor.call, h, Except.mapError]

/-- The printed call of one unit has the unit's value. -/
theorem decode_unit {encoding : Encoding} {unit : Int}
    (h : 0 ≤ unit ∧ unit < Int.pow 256 encoding.unitWidth) :
    decode .characters (callText (CharacterType.unit encoding).name [Text.ofInt unit]) =
      CharacterType.valueOf (CharacterType.unitChar? encoding unit)
        (CharacterType.bytesOf encoding unit) := by
  have range : inRange unit = true := by
    have width : Int.pow 256 encoding.unitWidth ≤ Int.pow 256 4 := by
      cases encoding <;> decide
    have small : unit < 4294967296 := Int.lt_of_lt_of_le h.2 width
    simp only [inRange, Bool.and_eq_true, decide_eq_true_eq]
    exact ⟨by show -170141183460469231731687303715884105728 ≤ unit; omega,
      by show unit < 170141183460469231731687303715884105728; omega⟩
  have name := plainName_unit encoding
  rw [decode_callText (by cases encoding <;> decide)
    (fun c hc => (Bracket.isPlain_iff.1 (name.plain c hc).1).2.2) (by cases encoding <;> decide)
    (List.forall_mem_singleton.2 ⟨split_ofInt unit, parenthesesMatch_ofInt unit⟩),
    List.map_singleton, decode_ofInt range]
  exact construct_character (CharacterType.call_unit h)

/-- The printed call of a text's units has the text. -/
theorem decode_printed (encoding : Encoding) (t : Text) :
    decode .characters (CharacterType.printed encoding t) = .str t := by
  have name := plainName_unit encoding
  have range (u : Nat) (hu : u ∈ encoding.units t) :
      0 ≤ (u : Int) ∧ (u : Int) < Int.pow 256 encoding.unitWidth := by
    have bound : (Nat.pow 256 encoding.unitWidth : Int) = Int.pow 256 encoding.unitWidth :=
      Int.natCast_pow 256 encoding.unitWidth
    refine ⟨Int.natCast_nonneg u, ?_⟩
    rw [← bound]
    exact Int.ofNat_lt.2 (Encoding.units_lt u hu)
  have one_piece : ∀ a ∈ (encoding.units t).map (fun u : Nat =>
      callText (CharacterType.unit encoding).name [Text.ofInt u]),
      Bracket.split ',' a = some [a] ∧ ParenthesesMatch a := by
    intro a ha
    obtain ⟨u, -, rfl⟩ := List.mem_map.1 ha
    exact ⟨split_callText name (Bracket.after?_of_isPlain fun c hc => (isPlain_of_mem_ofInt hc).1),
      parenthesesMatch_callText name
        (List.forall_mem_singleton.2 (parenthesesMatch_ofInt u))⟩
  have values : ((encoding.units t).map fun u : Nat =>
      callText (CharacterType.unit encoding).name [Text.ofInt u]).map (decode .characters) =
      ((encoding.units t).map Int.ofNat).map fun u =>
        CharacterType.valueOf (CharacterType.unitChar? encoding u)
          (CharacterType.bytesOf encoding u) := by
    rw [List.map_map, List.map_map]
    exact List.map_congr_left fun u hu => decode_unit (range u hu)
  have bytes : ((encoding.units t).map Int.ofNat).flatMap (CharacterType.bytesOf encoding) =
      (encoding.units t).flatMap (Encoding.toBytes encoding.unitWidth) :=
    List.flatMap_map ..
  have no_quote : (CharacterType.string encoding).name.any Bracket.isQuote = false := by
    cases encoding <;> decide
  rw [CharacterType.printed, decode_callText (by cases encoding <;> decide)
    (by simpa using no_quote) (by cases encoding <;> decide) one_piece, values]
  refine construct_character ?_
  rw [CharacterType.call_string, bytes, Encoding.decode_units]

end Literal

namespace CharacterType

/-- Unit by unit a string has the text of the whole sequence of units. For the encodings it has
none, and is refused, exactly where the sequence spells none; a wide string has a replacement
character for each unpaired half. So a text comes back from the printed call of its units. -/
theorem call_string_of_units :
    (∀ (encoding : Encoding) (units : List Int),
      (∀ u ∈ units, 0 ≤ u ∧ u < Int.pow 256 encoding.unitWidth) →
      ∃ values, units.mapM (fun u => (CharacterType.unit encoding).call [.int u]) = .ok values ∧
        (CharacterType.string encoding).call values =
          match encoding.decode (units.flatMap (bytesOf encoding)) with
          | some t => .ok (.str t)
          | none => .error (.noText (CharacterType.string encoding).name)) ∧
    (∀ units : List UInt16,
      ∃ values, units.mapM (fun u => CharacterType.wide.call [.int u.toNat]) = .ok values ∧
        CharacterType.wideString.call values = .ok (.str (Utf16.decodeLenient units))) ∧
    ∀ (encoding : Encoding) (t : Text),
      Literal.decode .characters (printed encoding t) = .str t :=
  ⟨fun _ units range => ⟨_, mapM_eq_ok fun u hu => call_unit (range u hu), call_string units⟩,
    fun units => ⟨_, mapM_eq_ok fun u _ => call_wide u, call_wideString units⟩,
    Literal.decode_printed⟩

/-- A pair of halves and an unpaired one. -/
theorem call_string_of_units_halves :
    (∀ u ∈ ([0xD83D, 0xDE00, 0x61] : List Int), 0 ≤ u ∧ u < Int.pow 256 2) ∧
    (∃ values,
      [0xD83D, 0xDE00, 0x61].mapM (fun u => (CharacterType.unit .utf16).call [.int u]) =
        .ok values ∧
      (CharacterType.string .utf16).call values = .ok (.str "😀a".toList)) ∧
    (∀ u ∈ ([0xDE00, 0x61, 0xD83D] : List Int), 0 ≤ u ∧ u < Int.pow 256 2) ∧
    ∃ values,
      [0xDE00, 0x61, 0xD83D].mapM (fun u => (CharacterType.unit .utf16).call [.int u]) =
        .ok values ∧
      (CharacterType.string .utf16).call values = .error (.noText "char16_t[]".toList) := by
  have paired : ∀ u ∈ ([0xD83D, 0xDE00, 0x61] : List Int), 0 ≤ u ∧ u < Int.pow 256 2 := by
    decide
  have unpaired : ∀ u ∈ ([0xDE00, 0x61, 0xD83D] : List Int), 0 ≤ u ∧ u < Int.pow 256 2 := by
    decide
  have spelled : Encoding.utf16.decode
      (([0xD83D, 0xDE00, 0x61] : List Int).flatMap (bytesOf .utf16)) = some "😀a".toList := by
    decide +kernel
  have nothing : Encoding.utf16.decode
      (([0xDE00, 0x61, 0xD83D] : List Int).flatMap (bytesOf .utf16)) = none := by
    decide +kernel
  have text := call_string_of_units.1 .utf16 _ paired
  have refused := call_string_of_units.1 .utf16 _ unpaired
  rw [spelled] at text
  rw [nothing] at refused
  exact ⟨paired, text, unpaired, refused⟩

end CharacterType

end ConstantDump
