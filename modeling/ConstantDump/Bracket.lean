import ConstantDump.Encoding.Utf8
import ConstantDump.Text.Blank

/-!
Brackets and quotes in the text of a literal. Every bracket is closed by its partner;
between quotes nothing but the closing quote counts, and a backslash hides the character
after it. `pieces` goes by characters, `offsets` by bytes. Main statement,
`piecesFrom_cons_cases`: what the first character of a text has to do with its pieces.
-/

namespace ConstantDump.Bracket

def closer? : Char → Option Char
  | '(' => some ')'
  | '[' => some ']'
  | '{' => some '}'
  | '<' => some '>'
  | _ => none

def isCloser (c : Char) : Bool := c = ')' || c = ']' || c = '}' || c = '>'

def isQuote (c : Char) : Bool := c = '"' || c = '\''

/-- The characters that mean nothing to the scan. -/
def isPlain (c : Char) : Bool := (closer? c).isNone && !isCloser c && !isQuote c

theorem isQuote_iff {c : Char} : isQuote c = true ↔ c = '"' ∨ c = '\'' := by simp [isQuote]

theorem ne_backslash_of_isQuote {c : Char} (h : isQuote c = true) : c ≠ '\\' := by
  rintro rfl
  cases h

theorem isPlain_iff {c : Char} :
    isPlain c = true ↔ closer? c = none ∧ isCloser c = false ∧ isQuote c = false := by
  simp [isPlain, and_assoc]

/-- Where a scan is. -/
inductive State
  /-- Outside quotes, with the brackets that are still to be closed, the next one
  first. -/
  | plain (closers : List Char)
  /-- Between quotes; what is still to be closed after them. -/
  | quoted (quote : Char) (closers : List Char)
  /-- Between quotes, right after a backslash. -/
  | escaped (quote : Char) (closers : List Char)
  deriving DecidableEq, Repr

def State.start : State := .plain []

/-- The state after one more character; none when it closes what is not open. -/
def State.next? : State → Char → Option State
  | .plain closers, c =>
    match closer? c with
    | some closer => some (.plain (closer :: closers))
    | none =>
      if isCloser c then if closers.head? = some c then some (.plain closers.tail) else none
      else if isQuote c then some (.quoted c closers)
      else some (.plain closers)
  | .quoted quote closers, c =>
    if c = '\\' then some (.escaped quote closers)
    else if c = quote then some (.plain closers)
    else some (.quoted quote closers)
  | .escaped quote closers, _ => some (.quoted quote closers)

/-- Whether the rest of a text closes all that is open. -/
def closes (s : State) : Text → Bool
  | [] => s = .start
  | c :: rest =>
    match s.next? c with
    | some s' => closes s' rest
    | none => false

/-- Whether every bracket has its partner and every quote is closed. -/
def isBalanced (t : Text) : Bool := closes .start t

/-- Whether `c` separates pieces here. Brackets and quotes never do. -/
def separates (separator : Char) (s : State) (c : Char) : Bool :=
  s = .start && c = separator && (closer? c).isNone && !isCloser c && !isQuote c

/-- The pieces of the rest of a text; the first one goes on with the piece at hand. -/
def piecesFrom (separator : Char) (s : State) : Text → Option (List Text)
  | [] => if s = .start then some [[]] else none
  | c :: rest =>
    if separates separator s c then (piecesFrom separator .start rest).map ([] :: ·)
    else
      match s.next? c with
      | some s' => (piecesFrom separator s' rest).map (·.modifyHead (c :: ·))
      | none => none

/-- The pieces between the separators outside brackets and quotes; none unless the text
is balanced. -/
def pieces (separator : Char) (t : Text) : Option (List Text) :=
  piecesFrom separator .start t

/-- The pieces without the blanks at their ends. A blank text has no piece. -/
def split (separator : Char) (t : Text) : Option (List Text) :=
  if Text.isAllBlank t then some [] else (pieces separator t).map (·.map Text.trim)

/-- What a byte is to the scan. -/
def seen (byte : UInt8) : Char := Char.ofNat byte.toNat

/-- The offsets of the separators in the bytes that follow, as far as they stand outside brackets
and quotes; none unless all that is open is closed. Brackets and quotes are no separators. -/
def offsetsFrom (separator : Option UInt8) (s : State) (offset : Nat) :
    List UInt8 → Option (List Nat)
  | [] => if s = .start then some [] else none
  | byte :: rest =>
    match s.next? (seen byte) with
    | none => none
    | some s' =>
      (offsetsFrom separator s' (offset + 1) rest).map fun later =>
        if s = .start ∧ isPlain (seen byte) = true ∧ separator = some byte then offset :: later
        else later

def offsets (separator : Option UInt8) (t : Text) : Option (List Nat) :=
  offsetsFrom separator .start 0 (Utf8.encode t)

theorem separates_iff {separator c : Char} {s : State} :
    separates separator s c = true ↔ s = .start ∧ c = separator ∧ isPlain c = true := by
  simp [separates, isPlain, and_assoc]

theorem piecesFrom_nil_iff {separator : Char} {s : State} {ps : List Text} :
    piecesFrom separator s [] = some ps ↔ s = .start ∧ ps = [[]] := by
  unfold piecesFrom
  split <;> simp_all [eq_comm]

theorem piecesFrom_ne_nil {separator : Char} {s : State} {t : Text} {ps : List Text}
    (h : piecesFrom separator s t = some ps) : ps ≠ [] := by
  induction t generalizing s ps with
  | nil => simp [(piecesFrom_nil_iff.1 h).2]
  | cons c t ih =>
    unfold piecesFrom at h
    split at h
    · obtain ⟨qs, -, rfl⟩ := Option.map_eq_some_iff.1 h
      simp
    · split at h
      · obtain ⟨qs, hq, rfl⟩ := Option.map_eq_some_iff.1 h
        cases qs with
        | nil => exact absurd rfl (ih hq)
        | cons q qs => simp
      · cases h

/-- What the first character of a text has to do with its pieces: it separates an empty one from
the others, or it belongs to the first one. -/
theorem piecesFrom_cons_cases {separator c : Char} {s : State} {t : Text} {ps : List Text}
    (h : piecesFrom separator s (c :: t) = some ps) :
    (s = .start ∧ c = separator ∧
      ∃ qs, piecesFrom separator .start t = some qs ∧ ps = [] :: qs) ∨
    ∃ s' q qs, separates separator s c = false ∧ s.next? c = some s' ∧
      piecesFrom separator s' t = some (q :: qs) ∧ ps = (c :: q) :: qs := by
  unfold piecesFrom at h
  split at h
  · rename_i cut
    obtain ⟨start, same, -⟩ := separates_iff.1 cut
    obtain ⟨qs, hq, rfl⟩ := Option.map_eq_some_iff.1 h
    exact .inl ⟨start, same, qs, hq, rfl⟩
  · rename_i stays
    split at h
    · rename_i s' step
      obtain ⟨qs, hq, rfl⟩ := Option.map_eq_some_iff.1 h
      obtain ⟨q, rest, rfl⟩ := List.exists_cons_of_ne_nil (piecesFrom_ne_nil hq)
      exact .inr ⟨s', q, rest, by simpa using stays, step, hq, rfl⟩
    · cases h

theorem length_le_of_mem_piecesFrom {separator : Char} {s : State} {t : Text}
    {ps : List Text} (h : piecesFrom separator s t = some ps) :
    ∀ p ∈ ps, p.length ≤ t.length := by
  induction t generalizing s ps with
  | nil => simp [(piecesFrom_nil_iff.1 h).2]
  | cons c t ih =>
    obtain ⟨-, -, qs, hq, rfl⟩ | ⟨s', q, qs, -, -, hq, rfl⟩ := piecesFrom_cons_cases h
    · refine List.forall_mem_cons.2 ⟨Nat.zero_le _, fun p hp => ?_⟩
      exact Nat.le_succ_of_le (ih hq p hp)
    · obtain ⟨first, others⟩ := List.forall_mem_cons.1 (ih hq)
      refine List.forall_mem_cons.2 ⟨Nat.succ_le_succ first, fun p hp => ?_⟩
      exact Nat.le_succ_of_le (others p hp)

theorem length_le_of_mem_split {separator : Char} {t p : Text} {ps : List Text}
    (h : split separator t = some ps) (hp : p ∈ ps) : p.length ≤ t.length := by
  unfold split at h
  split at h
  · cases h; simp at hp
  · obtain ⟨qs, hq, rfl⟩ := Option.map_eq_some_iff.1 h
    obtain ⟨q, hm, rfl⟩ := List.mem_map.1 hp
    exact Nat.le_trans (Text.length_trim_le q) (length_le_of_mem_piecesFrom hq q hm)

end ConstantDump.Bracket
