import ConstantDump.Proofs.Bracket.Pieces
import ConstantDump.Proofs.Encoding.Cut

/-!
Where separators stand in the bytes of a text. Every mark is one byte of ASCII, and the bytes of
other characters are none, so that a scan over bytes sees what a scan over characters sees.

* `offsetsFrom_cons`: the scan over bytes, character by character;
* `isSome_offsets`: it gets through the texts that are balanced;
* `offsets_eq`: the separators that it finds are where the pieces of the text end.
-/

namespace ConstantDump

namespace Utf8

def size (t : Text) : Nat := (encode t).length

theorem size_append (s t : Text) : size (s ++ t) = size s + size t := by
  rw [size, encode_append, List.length_append]
  rfl

theorem size_cons (c : Char) (t : Text) : size (c :: t) = size [c] + size t := size_append [c] t

theorem encode_cons (c : Char) (t : Text) : encode (c :: t) = encode [c] ++ encode t :=
  encode_append [c] t

theorem encode_singleton (c : Char) : encode [c] = String.utf8EncodeChar c := by
  simp [encode]

/-- A character of ASCII is one byte. -/
theorem encode_of_ascii {c : Char} (h : c.toNat < 0x80) : encode [c] = [UInt8.ofNat c.toNat] := by
  rw [encode_singleton]
  rcases utf8EncodeChar_cases c with ⟨single, -⟩ | ⟨beyond, -⟩
  · exact single
  · omega

end Utf8

namespace Bracket

def offsetsIn (separator : Option UInt8) (offset : Nat) : List UInt8 → List Nat
  | [] => []
  | byte :: rest =>
    if separator = some byte then offset :: offsetsIn separator (offset + 1) rest
    else offsetsIn separator (offset + 1) rest

variable {separator : Option UInt8} {s s' : State} {offset : Nat} {c : Char} {byte : UInt8}

/-! ## Bytes -/

theorem toNat_seen (byte : UInt8) : (seen byte).toNat = byte.toNat := by
  have small : byte.toNat < 256 := byte.toNat_lt
  have valid : byte.toNat.isValidChar := .inl (by omega)
  rw [seen, Char.ofNat, dif_pos valid]
  rfl

theorem seen_of_ascii (h : c.toNat < 0x80) : seen (UInt8.ofNat c.toNat) = c := by
  have same : (UInt8.ofNat c.toNat).toNat = c.toNat := by
    rw [UInt8.toNat_ofNat']
    omega
  rw [seen, same, Char.ofNat_toNat]

/-- Beyond ASCII there are no marks. -/
theorem isPlain_of_high (h : 0x80 ≤ c.toNat) : isPlain c = true := by
  have ascii : marks.any (fun mark => decide (0x80 ≤ mark.toNat)) = false := by decide
  exact isPlain_of_class ascii (by simpa using h)

/-- Characters beyond ASCII change nothing, but a backslash may hide one. -/
theorem next?_of_high (quoted : s.WellQuoted) (h : 0x80 ≤ c.toNat) :
    s.next? c = some (match s with
      | .escaped quote closers => .quoted quote closers
      | s => s) := by
  have other (d : Char) (ascii : d.toNat < 0x80) : c ≠ d := by
    rintro rfl
    omega
  refine next?_eq_some_iff.2 ?_
  cases s with
  | plain closers => exact .passes closers (isPlain_of_high h)
  | quoted quote closers =>
    have visible : c ≠ quote := by
      rcases isQuote_iff.1 quoted with rfl | rfl <;> exact other _ (by decide)
    exact .stays closers (other _ (by decide)) visible
  | escaped quote closers => exact .hides quote c closers

theorem offsetsFrom_byte (next : s.next? (seen byte) = some s') (rest : List UInt8) :
    offsetsFrom separator s offset (byte :: rest) =
      (offsetsFrom separator s' (offset + 1) rest).map
        ((if s = .start ∧ isPlain (seen byte) = true then offsetsIn separator offset [byte]
          else []) ++ ·) := by
  simp only [offsetsFrom, next]
  congr 1
  funext later
  by_cases outside : s = .start ∧ isPlain (seen byte) = true
  · by_cases here : separator = some byte
    · simp [outside, here, offsetsIn]
    · simp [outside, here, offsetsIn]
  · have nowhere :
        ¬ (s = .start ∧ isPlain (seen byte) = true ∧ separator = some byte) :=
      fun ⟨start, plain, _⟩ => outside ⟨start, plain⟩
    rw [if_neg nowhere, if_neg outside, List.nil_append]

theorem offsetsIn_cons (byte : UInt8) (rest : List UInt8) :
    offsetsIn separator offset (byte :: rest) =
      offsetsIn separator offset [byte] ++ offsetsIn separator (offset + 1) rest := by
  by_cases here : separator = some byte
  · simp [offsetsIn, here]
  · simp [offsetsIn, here]

/-- Bytes beyond ASCII leave the scan where it is, unless a backslash hides the first one. -/
theorem offsetsFrom_run {run : List UInt8} (high : ∀ byte ∈ run, 0x80 ≤ byte.toNat)
    (still : ∀ c : Char, 0x80 ≤ c.toNat → s.next? c = some s) (rest : List UInt8) :
    offsetsFrom separator s offset (run ++ rest) =
      (offsetsFrom separator s (offset + run.length) rest).map
        ((if s = .start then offsetsIn separator offset run else []) ++ ·) := by
  induction run generalizing offset with
  | nil => simp [offsetsIn]
  | cons byte run ih =>
    obtain ⟨here, later⟩ := List.forall_mem_cons.1 high
    have beyond : 0x80 ≤ (seen byte).toNat := by rwa [toNat_seen]
    rw [List.cons_append, offsetsFrom_byte (still _ beyond), ih later, Option.map_map,
      List.length_cons, offsetsIn_cons byte run, Nat.add_assoc, Nat.add_comm 1]
    congr 1
    funext found
    by_cases outside : s = .start
    · simp [outside, isPlain_of_high beyond]
    · simp [outside]

/-! ## Characters -/

/-- The scan over bytes, character by character. -/
theorem offsetsFrom_cons (quoted : s.WellQuoted) (c : Char) (t : Text) :
    offsetsFrom separator s offset (Utf8.encode (c :: t)) =
      (s.next? c).bind fun s' =>
        (offsetsFrom separator s' (offset + Utf8.size [c]) (Utf8.encode t)).map
          ((if s = .start ∧ isPlain c = true then offsetsIn separator offset (Utf8.encode [c])
            else []) ++ ·) := by
  have spelled : Utf8.encode [c] = String.utf8EncodeChar c := Utf8.encode_singleton c
  rw [Utf8.encode_cons, Utf8.size, spelled]
  rcases Utf8.utf8EncodeChar_cases c with ⟨single, ascii⟩ | ⟨beyond, several, high⟩
  · rw [single, List.singleton_append]
    cases next : s.next? c with
    | none => simp only [offsetsFrom, seen_of_ascii ascii, next, Option.bind_none]
    | some s' =>
      rw [offsetsFrom_byte (by rwa [seen_of_ascii ascii]), seen_of_ascii ascii]
      rfl
  · rw [next?_of_high quoted beyond, Option.bind_some]
    cases s with
    | plain closers =>
      rw [offsetsFrom_run high fun _ h => next?_of_high quoted h]
      simp [isPlain_of_high beyond]
    | quoted quote closers =>
      rw [offsetsFrom_run high fun _ h => next?_of_high quoted h]
      simp [State.start]
    | escaped quote closers =>
      obtain ⟨byte, run, shape⟩ : ∃ byte run, String.utf8EncodeChar c = byte :: run :=
        List.exists_cons_of_length_pos (by omega)
      rw [shape] at high ⊢
      obtain ⟨here, later⟩ := List.forall_mem_cons.1 high
      have inside : (State.quoted quote closers).WellQuoted := quoted
      rw [List.cons_append, offsetsFrom_byte (next?_of_high quoted (by rwa [toNat_seen])),
        offsetsFrom_run later fun _ h => next?_of_high inside h]
      simp [State.start, Nat.add_assoc, Nat.add_comm 1]

/-- The scan over bytes gets through what the scan over characters gets through. -/
theorem isSome_offsetsFrom (quoted : s.WellQuoted) (t : Text) :
    (offsetsFrom separator s offset (Utf8.encode t)).isSome = closes s t := by
  induction t generalizing s offset with
  | nil =>
    rw [Utf8.encode_nil, offsetsFrom, closes]
    split <;> simp_all
  | cons c t ih =>
    rw [offsetsFrom_cons quoted, closes]
    cases next : s.next? c with
    | none => rfl
    | some s' => rw [Option.bind_some, Option.isSome_map, ih (quoted.next? next)]

theorem isSome_offsets (separator : Option UInt8) (t : Text) :
    (offsets separator t).isSome = isBalanced t :=
  isSome_offsetsFrom (s := .start) trivial t

/-! ## Pieces -/

/-- Where pieces end that stand one after another, with a separator of one byte between two. -/
def ends (offset : Nat) : List Text → List Nat
  | [] => []
  | [_] => []
  | p :: next :: ps => (offset + Utf8.size p) :: ends (offset + Utf8.size p + 1) (next :: ps)

theorem ends_cons (offset : Nat) (p : Text) {ps : List Text} (more : ps ≠ []) :
    ends offset (p :: ps) = (offset + Utf8.size p) :: ends (offset + Utf8.size p + 1) ps := by
  cases ps with
  | nil => exact absurd rfl more
  | cons next ps => rfl

theorem ends_modifyHead (offset : Nat) (c : Char) (ps : List Text) :
    ends offset (ps.modifyHead (c :: ·)) = ends (offset + Utf8.size [c]) ps := by
  match ps with
  | [] => rfl
  | [_] => rfl
  | p :: next :: ps =>
    rw [List.modifyHead_cons, ends, ends, Utf8.size_cons c p, ← Nat.add_assoc offset]

theorem offsetsIn_of_notMem {bytes : List UInt8} (h : byte ∉ bytes) :
    offsetsIn (some byte) offset bytes = [] := by
  induction bytes generalizing offset with
  | nil => rfl
  | cons first bytes ih =>
    obtain ⟨other, later⟩ := List.ne_and_not_mem_of_not_mem_cons h
    rw [offsetsIn, if_neg (fun same => other (Option.some.inj same)), ih later]

/-- The byte of a character of ASCII is in that character only. -/
theorem eq_of_mem_encode {d : Char} (ascii : d.toNat < 0x80)
    (h : UInt8.ofNat d.toNat ∈ Utf8.encode [c]) : c = d := by
  have low : (UInt8.ofNat d.toNat).toNat < 0x80 := by rwa [← toNat_seen, seen_of_ascii ascii]
  rw [Utf8.encode_singleton] at h
  rcases Utf8.utf8EncodeChar_cases c with ⟨single, here⟩ | ⟨-, -, high⟩
  · rw [single, List.mem_singleton] at h
    rw [← seen_of_ascii here, ← h, seen_of_ascii ascii]
  · have := high _ h
    omega

/-- The separators that the scan over bytes finds are where the pieces of a text end. -/
theorem offsetsFrom_eq {mark : Char} (ascii : mark.toNat < 0x80) (quoted : s.WellQuoted)
    (t : Text) :
    offsetsFrom (some (UInt8.ofNat mark.toNat)) s offset (Utf8.encode t) =
      (piecesFrom mark s t).map (ends offset) := by
  induction t generalizing s offset with
  | nil =>
    rw [Utf8.encode_nil, offsetsFrom, piecesFrom]
    split <;> rfl
  | cons c t ih =>
    rw [offsetsFrom_cons quoted, piecesFrom]
    by_cases cut : separates mark s c = true
    · obtain ⟨rfl, rfl, plain⟩ := separates_iff.1 cut
      have single : Utf8.encode [c] = [UInt8.ofNat c.toNat] := Utf8.encode_of_ascii ascii
      rw [if_pos cut, next?_start_of_isPlain plain, Option.bind_some, ih (s := .start) trivial,
        Utf8.size, single]
      cases later : piecesFrom c .start t with
      | none => rfl
      | some ps =>
        have more : ps ≠ [] := piecesFrom_ne_nil later
        simp [ends_cons offset [] more, offsetsIn, plain, Utf8.size]
    · rw [if_neg cut]
      cases next : s.next? c with
      | none => rfl
      | some s' =>
        have nothing : (if s = .start ∧ isPlain c = true then
            offsetsIn (some (UInt8.ofNat mark.toNat)) offset (Utf8.encode [c]) else []) = [] := by
          split
          · rename_i outside
            refine offsetsIn_of_notMem fun mem => cut (separates_iff.2 ?_)
            exact ⟨outside.1, eq_of_mem_encode ascii mem, outside.2⟩
          · rfl
        rw [nothing, Option.bind_some, ih (quoted.next? next), Option.map_map, Option.map_map]
        congr 1
        funext ps
        exact (ends_modifyHead ..).symm

theorem offsets_eq {mark : Char} (ascii : mark.toNat < 0x80) (t : Text) :
    offsets (some (UInt8.ofNat mark.toNat)) t = (pieces mark t).map (ends 0) :=
  offsetsFrom_eq ascii (s := .start) trivial t

end Bracket

end ConstantDump
