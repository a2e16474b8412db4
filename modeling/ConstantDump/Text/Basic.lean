/-!
Text as a list of characters. Names, lines, literals and messages are all of
this type, so every scan over them is a recursion on a list.
-/

namespace ConstantDump

abbrev Text := List Char

namespace Text

def ofNat (n : Nat) : Text := Nat.toDigits 10 n

def ofInt : Int → Text
  | .ofNat n => ofNat n
  | .negSucc n => '-' :: ofNat (n + 1)

def join (separator : Text) : List Text → Text
  | [] => []
  | [piece] => piece
  | piece :: next :: rest => piece ++ separator ++ join separator (next :: rest)

/-- Left to right, every occurrence of the pattern goes; `skip` characters of the
occurrence found last are still to be passed over. -/
def eraseFrom (pattern : Text) : (skip : Nat) → Text → Text
  | _, [] => []
  | 0, c :: rest =>
    if pattern.isPrefixOf (c :: rest) then eraseFrom pattern (pattern.length - 1) rest
    else c :: eraseFrom pattern 0 rest
  | skip + 1, _ :: rest => eraseFrom pattern skip rest

/-- Every occurrence of the pattern goes, left to right and without a second look
at what then meets. -/
def erase (pattern text : Text) : Text := eraseFrom pattern 0 text

theorem isPrefixOf?_eq_some_iff {p t r : Text} : p.isPrefixOf? t = some r ↔ t = p ++ r := by
  induction p generalizing t with
  | nil =>
    show some t = some r ↔ t = r
    simp
  | cons c p ih =>
    cases t with
    | nil =>
      show none = some r ↔ [] = c :: (p ++ r)
      simp
    | cons d t =>
      show (if c == d then p.isPrefixOf? t else none) = some r ↔ d :: t = c :: (p ++ r)
      by_cases h : c = d
      · simp [h, ih]
      · simp [h, Ne.symm h]

theorem isSuffixOf?_eq_some_iff {p t r : Text} : p.isSuffixOf? t = some r ↔ t = r ++ p := by
  unfold List.isSuffixOf?
  constructor
  · intro h
    obtain ⟨s, hs, rfl⟩ := Option.map_eq_some_iff.1 h
    have := isPrefixOf?_eq_some_iff.1 hs
    rw [← List.reverse_reverse t, this]
    simp
  · rintro rfl
    have : p.reverse.isPrefixOf? (p.reverse ++ r.reverse) = some r.reverse :=
      isPrefixOf?_eq_some_iff.2 rfl
    simp [this]

theorem isSuffixOf?_eq_none {t : Text} {c : Char} (h : t.getLast? ≠ some c) :
    [c].isSuffixOf? t = none := by
  refine Option.eq_none_iff_forall_ne_some.2 fun rest ends => h ?_
  rw [isSuffixOf?_eq_some_iff.1 ends]
  exact List.getLast?_concat ..

end Text

end ConstantDump
