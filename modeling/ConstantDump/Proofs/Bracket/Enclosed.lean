import ConstantDump.Proofs.Bracket.Split

/-!
Texts between brackets. Whatever a scan does with a text on its own, it does inside brackets
too, and the brackets around the text stay open until it is through.

* `piecesFrom_within`: inside brackets, what a text brings the scan to goes on with the same piece;
* `pieces_enclosed`: a text that closes what it opens is one piece when brackets, and plain
  characters before them, stand around it.
-/

namespace ConstantDump.Bracket

/-- The same place with more to be closed outside of it. -/
def State.within (outer : List Char) : State → State
  | .plain closers => .plain (closers ++ outer)
  | .quoted quote closers => .quoted quote (closers ++ outer)
  | .escaped quote closers => .escaped quote (closers ++ outer)

theorem State.next?_within {s s' : State} {c : Char} (h : s.next? c = some s')
    (outer : List Char) : (s.within outer).next? c = some (s'.within outer) := by
  refine next?_eq_some_iff.2 ?_
  cases next?_eq_some_iff.1 h with
  | opens _ opening => exact .opens _ opening
  | closes _ closing => exact .closes _ closing
  | quotes _ quote => exact .quotes _ quote
  | passes _ plain => exact .passes _ plain
  | escapes quote _ => exact .escapes quote _
  | ends _ visible => exact .ends _ visible
  | stays _ visible other => exact .stays _ visible other
  | hides quote c _ => exact .hides quote c _

/-- Nothing separates inside brackets. -/
theorem separates_within {separator c closer : Char} (s : State) (outer : List Char) :
    separates separator (s.within (closer :: outer)) c = false :=
  separates_of_ne_start (by cases s <;> simp [State.within, State.start])

theorem piecesFrom_within {separator closer : Char} {t : Text} {s s' : State}
    (h : after? s t = some s') (outer : List Char) (rest : Text) :
    piecesFrom separator (s.within (closer :: outer)) (t ++ rest) =
      (piecesFrom separator (s'.within (closer :: outer)) rest).map
        (·.modifyHead (t ++ ·)) := by
  induction t generalizing s with
  | nil =>
    cases h
    rw [List.nil_append, modifyHead_nil_append, Option.map_id, id]
  | cons c t ih =>
    obtain ⟨s₁, first, later⟩ := after?_cons_eq_some_iff.1 h
    exact piecesFrom_step_append (separates_within s outer)
      (State.next?_within first (closer :: outer)) (ih later)

/-- A text that closes what it opens is part of one piece when brackets stand around it. -/
theorem pieces_enclosed {separator opening closing : Char} {u t : Text}
    (hu : ∀ c ∈ u, isPlain c = true ∧ c ≠ separator) (ho : closer? opening = some closing)
    (h : after? .start t = some .start) :
    pieces separator (u ++ (opening :: (t ++ [closing]))) =
      some [u ++ (opening :: (t ++ [closing]))] := by
  have opens : separates separator .start opening = false := by simp [separates, ho]
  have step : State.start.next? opening = some (State.within [closing] .start) := by
    simp [State.start, State.next?, ho, State.within]
  have closes : piecesFrom separator (State.within [closing] .start) [closing] =
      some [[closing]] := by
    have closer : isCloser closing = true := by
      unfold closer? at ho
      split at ho <;> cases ho <;> decide
    rw [piecesFrom_step (separates_within .start []) (next?_eq_some_iff.2 (.closes [] closer))]
    rfl
  rw [pieces, piecesFrom_plain hu, piecesFrom, opens, step]
  simp only [Bool.false_eq_true, ↓reduceIte, piecesFrom_within h, closes, Option.map_some,
    List.modifyHead_cons]

end ConstantDump.Bracket
