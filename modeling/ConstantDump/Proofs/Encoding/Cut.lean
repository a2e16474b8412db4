import ConstantDump.Encoding.Units
import Mathlib.Data.List.Basic

/-!
Where a sequence of code units can be cut. A unit that is a character on its own belongs to
no longer sequence, so what is before it and what is behind it can be read apart.

* `Utf8.decode_cut`, `Utf16.read_cut`: the cut, for bytes and for 16-bit units;
* `Encoding.decode_cut`, `Encoding.decodeWide_cut`: the same for units that lie in bytes.
-/

namespace ConstantDump

namespace Utf8

/-- The bytes of a longer sequence are none of ASCII. -/
theorem utf8EncodeChar_cases (c : Char) :
    String.utf8EncodeChar c = [UInt8.ofNat c.toNat] ∧ c.toNat < 0x80 ∨
      0x80 ≤ c.toNat ∧ 2 ≤ (String.utf8EncodeChar c).length ∧
        ∀ byte ∈ String.utf8EncodeChar c, 0x80 ≤ byte.toNat := by
  have code : c.val.toNat = c.toNat := rfl
  unfold String.utf8EncodeChar
  simp only [code]
  split
  · exact .inl ⟨rfl, by omega⟩
  · refine .inr ⟨by omega, ?_⟩
    split
    · simp; omega
    · split
      · simp; omega
      · simp; omega

/-- A byte of ASCII is a character on its own, wherever it stands. -/
theorem utf8EncodeChar_of_mem {c : Char} {byte : UInt8} (ascii : byte.toNat < 0x80)
    (h : byte ∈ String.utf8EncodeChar c) : String.utf8EncodeChar c = [byte] := by
  rcases utf8EncodeChar_cases c with ⟨single, -⟩ | ⟨-, -, high⟩
  · rw [single] at h ⊢
    rw [List.mem_singleton.1 h]
  · have := high byte h
    omega

theorem encode_eq_append_cons {t : Text} {run rest : List UInt8} {byte : UInt8}
    (ascii : byte.toNat < 0x80) (h : encode t = run ++ byte :: rest) :
    ∃ before c after, t = before ++ c :: after ∧ run = encode before ∧
      String.utf8EncodeChar c = [byte] ∧ rest = encode after := by
  induction t generalizing run with
  | nil => simp at h
  | cons c t ih =>
    have first : encode (c :: t) = String.utf8EncodeChar c ++ encode t := rfl
    by_cases here : byte ∈ String.utf8EncodeChar c ∧ run = []
    · have single := utf8EncodeChar_of_mem ascii here.1
      rw [first, single, here.2] at h
      obtain ⟨-, rfl⟩ : byte = byte ∧ encode t = rest := by simpa using h
      exact ⟨[], c, t, rfl, by simpa using here.2, single, rfl⟩
    · rw [first] at h
      rcases List.append_eq_append_iff.1 h with ⟨w, hrun, hw⟩ | ⟨w, hc, hw⟩
      · obtain ⟨before, d, after, rfl, rfl, single, rfl⟩ := ih hw
        exact ⟨c :: before, d, after, rfl, hrun, single, rfl⟩
      · cases w with
        | nil =>
          rw [List.append_nil] at hc
          obtain ⟨before, d, after, rfl, hb, single, rfl⟩ := @ih [] hw.symm
          refine ⟨c :: before, d, after, rfl, ?_, single, rfl⟩
          have whole : encode (c :: before) = String.utf8EncodeChar c ++ encode before := rfl
          rw [whole, ← hb, List.append_nil, hc]
        | cons b w =>
          -- The byte is inside this character, and so all of it.
          obtain ⟨rfl, -⟩ : byte = b ∧ rest = w ++ encode t := by simpa using hw
          have inside : byte ∈ String.utf8EncodeChar c := by
            rw [hc]
            simp
          have single := utf8EncodeChar_of_mem ascii inside
          rw [single] at hc
          have none_before : run = [] := by
            cases run with
            | nil => rfl
            | cons a run => simp at hc
          exact absurd ⟨inside, none_before⟩ here

/-- A byte that is a character on its own cuts the bytes. -/
theorem decode_cut {byte : UInt8} {c : Char} (h : decode [byte] = some [c])
    (run rest : List UInt8) :
    decode (run ++ byte :: rest) = do return (← decode run) ++ c :: (← decode rest) := by
  have single : String.utf8EncodeChar c = [byte] := by
    simpa [encode] using (eq_encode_of_decode h).symm
  have ascii : byte.toNat < 0x80 := by
    rcases utf8EncodeChar_cases c with ⟨here, low⟩ | ⟨-, long, -⟩
    · obtain rfl : UInt8.ofNat c.toNat = byte := by simpa [single] using here.symm
      simp
      omega
    · simp [single] at long
  refine Option.ext fun t => ?_
  simp only [decode_eq_some_iff, Option.bind_eq_bind, Option.bind_eq_some_iff, Option.pure_def,
    Option.some.injEq]
  constructor
  · intro whole
    obtain ⟨before, d, after, rfl, rfl, same, rfl⟩ := encode_eq_append_cons ascii whole.symm
    have : encode [d] = encode [c] := by simp [encode, same, single]
    obtain rfl : d = c := by
      have decoded := decode_encode [d]
      rw [this, decode_encode] at decoded
      simpa using decoded.symm
    exact ⟨before, rfl, after, rfl, rfl⟩
  · rintro ⟨before, rfl, after, rfl, rfl⟩
    simp [encode, single]

end Utf8

namespace Utf16

theorem not_surrogate_of_scalar? {unit : UInt16} {c : Char}
    (h : Text.scalar? unit.toNat = some c) : isLead unit = false ∧ isTrail unit = false := by
  have valid : unit.toNat.isValidChar := by
    by_contra other
    rw [Text.scalar?, dif_neg other] at h
    cases h
  simp only [Nat.isValidChar] at valid
  simp only [isLead, isTrail, Bool.and_eq_false_iff, decide_eq_false_iff_not,
    UInt16.le_iff_toNat_le, UInt16.reduceToNat]
  omega

theorem read_cons {unit : UInt16} (h : isLead unit = false) (rest : List UInt16) :
    read (unit :: rest) = Text.scalar? unit.toNat :: read rest := by
  cases rest with
  | nil => rfl
  | cons next rest => simp [read, h]

/-- A unit that is a character on its own cuts the units. -/
theorem read_cut {unit : UInt16} {c : Char} (h : Text.scalar? unit.toNat = some c)
    (run rest : List UInt16) : read (run ++ unit :: rest) = read run ++ some c :: read rest := by
  obtain ⟨lead, trail⟩ := not_surrogate_of_scalar? h
  have here : read (unit :: rest) = some c :: read rest := by rw [read_cons lead, h]
  fun_induction read run with
  | case1 => exact here
  | case2 first => simp [read, trail, here]
  | case3 first next run pair ih =>
    simp only [List.cons_append, read, pair, ↓reduceIte, ih]
  | case4 first next run pair ih =>
    simp only [List.cons_append, read, pair, Bool.false_eq_true, ↓reduceIte] at ih ⊢
    rw [ih]

end Utf16

namespace Encoding

theorem units16_append {run : List UInt8} (h : 2 ∣ run.length) (rest : List UInt8) :
    units16 (run ++ rest) = units16 run ++ units16 rest := by
  fun_induction units16 run with
  | case1 a b run ih =>
    have even : 2 ∣ run.length := by
      simp only [List.length_cons] at h
      omega
    simp [units16, ih even]
  | case2 run short =>
    match run, short with
    | [], _ => rfl
    | [a], _ => simp at h
    | a :: b :: run, short => exact absurd rfl (short a b run)

theorem units32_append {run : List UInt8} (h : 4 ∣ run.length) (rest : List UInt8) :
    units32 (run ++ rest) = units32 run ++ units32 rest := by
  fun_induction units32 run with
  | case1 a b c d run ih =>
    have whole : 4 ∣ run.length := by
      simp only [List.length_cons] at h
      omega
    simp [units32, ih whole]
  | case2 run short =>
    match run, short with
    | [], _ => rfl
    | [a], _ => simp at h
    | [a, b], _ => simp at h
    | [a, b, c], _ => simp at h
    | a :: b :: c :: d :: run, short => exact absurd rfl (short a b c d run)

theorem units16_cut {run : List UInt8} (aligned : 2 ∣ run.length) (a b : UInt8)
    (rest : List UInt8) :
    units16 (run ++ ([a, b] ++ rest)) =
      units16 run ++ UInt16.ofNat (ofBytes [a, b]) :: units16 rest := by
  rw [units16_append aligned]
  rfl

theorem units32_cut {run : List UInt8} (aligned : 4 ∣ run.length) (a b c d : UInt8)
    (rest : List UInt8) :
    units32 (run ++ ([a, b, c, d] ++ rest)) =
      units32 run ++ ofBytes [a, b, c, d] :: units32 rest := by
  rw [units32_append aligned]
  rfl

/-- Whole units before it do not change how many bytes are left over. -/
theorem length_append_mod {run bytes : List UInt8} {width : Nat} (aligned : width ∣ run.length)
    (h : bytes.length = width) (rest : List UInt8) :
    (run ++ (bytes ++ rest)).length % width = rest.length % width := by
  obtain ⟨k, hk⟩ := aligned
  rw [List.length_append, List.length_append, hk, h, Nat.mul_add_mod, Nat.add_mod_left]

theorem mapM_singleton {α : Type} (f : α → Option Char) (x : α) :
    [x].mapM f = (f x).map ([·]) := by
  rw [List.mapM_cons, List.mapM_nil]
  cases f x <;> rfl

theorem decode_unit16 (a b : UInt8) :
    decode .utf16 [a, b] =
      (Text.scalar? (UInt16.ofNat (ofBytes [a, b])).toNat).map ([·]) := by
  have whole : [a, b].length % 2 = 0 := by simp
  rw [decode, if_pos whole]
  exact mapM_singleton id _

theorem decode_unit32 (a b c d : UInt8) :
    decode .utf32 [a, b, c, d] = (Text.scalar? (ofBytes [a, b, c, d])).map ([·]) := by
  have whole : [a, b, c, d].length % 4 = 0 := by simp
  rw [decode, if_pos whole]
  exact mapM_singleton Text.scalar? _

theorem length_eq_four {bytes : List UInt8} (h : bytes.length = 4) :
    ∃ a b c d, bytes = [a, b, c, d] := by
  obtain ⟨a, rest, rfl⟩ := List.exists_cons_of_length_eq_add_one h
  obtain ⟨b, c, d, rfl⟩ := List.length_eq_three.1 (by simpa using h)
  exact ⟨a, b, c, d, rfl⟩

/-- One unit spells one character, if any. -/
theorem eq_singleton_of_decode {encoding : Encoding} {bytes : List UInt8} {t : Text}
    (width : bytes.length = encoding.unitWidth) (h : encoding.decode bytes = some t) :
    ∃ c, t = [c] := by
  cases encoding with
  | utf8 =>
    obtain ⟨byte, rfl⟩ := List.length_eq_one_iff.1 width
    have whole := congrArg List.length (Utf8.eq_encode_of_decode h)
    rcases t with _ | ⟨c, _ | ⟨d, t⟩⟩
    · simp at whole
    · exact ⟨c, rfl⟩
    · have first := c.utf8Size_pos
      have second := d.utf8Size_pos
      simp [Utf8.encode] at whole
      omega
  | utf16 =>
    obtain ⟨a, b, rfl⟩ := List.length_eq_two.1 width
    rw [decode_unit16] at h
    obtain ⟨c, -, rfl⟩ := Option.map_eq_some_iff.1 h
    exact ⟨c, rfl⟩
  | utf32 =>
    obtain ⟨a, b, x, y, rfl⟩ := length_eq_four width
    rw [decode_unit32] at h
    obtain ⟨c, -, rfl⟩ := Option.map_eq_some_iff.1 h
    exact ⟨c, rfl⟩

theorem mapM_cut {α : Type} {f : α → Option Char} {x : α} {c : Char} (h : f x = some c)
    (xs ys : List α) :
    (xs ++ x :: ys).mapM f = do return (← xs.mapM f) ++ c :: (← ys.mapM f) := by
  rw [List.mapM_append, List.mapM_cons, h]
  cases xs.mapM f with
  | none => rfl
  | some before => cases ys.mapM f <;> rfl

/-- The bytes of a unit that is a character on its own cut the bytes of any units. -/
theorem decode_cut {encoding : Encoding} {run bytes : List UInt8} {c : Char}
    (aligned : encoding.unitWidth ∣ run.length) (width : bytes.length = encoding.unitWidth)
    (h : encoding.decode bytes = some [c]) (rest : List UInt8) :
    encoding.decode (run ++ (bytes ++ rest)) =
      do return (← encoding.decode run) ++ c :: (← encoding.decode rest) := by
  cases encoding with
  | utf8 =>
    obtain ⟨byte, rfl⟩ := List.length_eq_one_iff.1 width
    exact Utf8.decode_cut h run rest
  | utf16 =>
    obtain ⟨a, b, rfl⟩ := List.length_eq_two.1 width
    have unit : Text.scalar? (UInt16.ofNat (ofBytes [a, b])).toNat = some c := by
      rw [decode_unit16] at h
      simpa using h
    have pairs : 2 ∣ run.length := aligned
    have even : run.length % 2 = 0 := Nat.dvd_iff_mod_eq_zero.1 pairs
    have left_over := length_append_mod pairs width rest
    simp only [decode, even, left_over, units16_cut pairs, ↓reduceIte, Utf16.decode,
      Utf16.read_cut unit, mapM_cut (f := id) (x := some c) rfl]
    by_cases whole : rest.length % 2 = 0
    · simp [whole]
    · simp [whole]
  | utf32 =>
    obtain ⟨a, b, x, y, rfl⟩ := length_eq_four width
    have unit : Text.scalar? (ofBytes [a, b, x, y]) = some c := by
      rw [decode_unit32] at h
      simpa using h
    have fours : 4 ∣ run.length := aligned
    have even : run.length % 4 = 0 := Nat.dvd_iff_mod_eq_zero.1 fours
    have left_over := length_append_mod fours width rest
    simp only [decode, even, left_over, units32_cut fours, ↓reduceIte, mapM_cut unit]
    by_cases whole : rest.length % 4 = 0
    · simp [whole]
    · simp [whole]

theorem decodeWide_cut {run : List UInt8} {a b : UInt8} {c : Char} (aligned : 2 ∣ run.length)
    (h : Text.scalar? (UInt16.ofNat (ofBytes [a, b])).toNat = some c) (rest : List UInt8) :
    decodeWide (run ++ ([a, b] ++ rest)) = decodeWide run ++ c :: decodeWide rest := by
  have even : run.length % 2 = 0 := Nat.dvd_iff_mod_eq_zero.1 aligned
  have two : [a, b].length = 2 := rfl
  rw [decodeWide, units16_cut aligned, length_append_mod aligned two, Utf16.decodeLenient,
    Utf16.read_cut h]
  simp [decodeWide, even, Utf16.decodeLenient]

end Encoding

end ConstantDump
