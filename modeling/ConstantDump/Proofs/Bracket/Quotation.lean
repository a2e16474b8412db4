import ConstantDump.Proofs.Bracket.Split
import ConstantDump.Proofs.Line.Written
import ConstantDump.Proofs.Text.Escape

/-!
Texts between quotes. Nothing in them separates, and no bracket in them opens or closes.

* `split_quotation`: a quoted text is one piece when its quote occurs in it behind a backslash
  only;
* `unescape_sheltered`: with a backslash before each quote and each backslash, every text can
  stand between quotes, and comes back.
-/

namespace ConstantDump

namespace Text

def quotation (quote : Char) (body : Text) : Text := quote :: (body ++ [quote])

theorem getLast?_enclosed (opening closing : Char) (t : Text) :
    (opening :: (t ++ [closing])).getLast? = some closing := by
  rw [← List.cons_append, List.getLast?_concat]

/-- Whether a text between quotes reaches to the last one: its quote occurs in it behind a
backslash only, and that one hides no backslash behind which the last one would be hidden. -/
def staysQuoted (quote : Char) : Text → Bool
  | [] => true
  | ['\\'] => false
  | '\\' :: _ :: rest => staysQuoted quote rest
  | c :: rest => c ≠ quote && staysQuoted quote rest

/-- The text with a backslash before each quote and each backslash. -/
def sheltered (quote : Char) (t : Text) : Text :=
  t.flatMap fun c => if c = '\\' ∨ c = quote then ['\\', c] else [c]

theorem staysQuoted_sheltered (quote : Char) (t : Text) :
    staysQuoted quote (sheltered quote t) = true := by
  induction t with
  | nil => rfl
  | cons c t ih =>
    by_cases escaped : c = '\\' ∨ c = quote
    · have shape : sheltered quote (c :: t) = '\\' :: c :: sheltered quote t := by
        simp [sheltered, escaped]
      rw [shape, staysQuoted]
      exact ih
    · have shape : sheltered quote (c :: t) = c :: sheltered quote t := by
        simp [sheltered, escaped]
      obtain ⟨backslash, other⟩ := not_or.1 escaped
      rw [shape]
      unfold staysQuoted
      split <;> simp_all

/-- Every text comes back from between quotes. -/
theorem unescape_sheltered {quote : Char} (hq : Bracket.isQuote quote = true) (t : Text) :
    unescape (sheltered quote t) = t := by
  have quotes : quote = '"' ∨ quote = '\'' := Bracket.isQuote_iff.1 hq
  have spelled : List.Forall₂ Spells t
      (t.map fun c => if c = '\\' ∨ c = quote then ['\\', c] else [c]) := by
    refine List.forall₂_map_right_iff.2 (List.forall₂_same.2 fun c _ => ?_)
    split
    · rename_i escaped
      refine .whole _ (.simple c c ?_)
      rcases escaped with rfl | rfl
      · decide
      · rcases quotes with rfl | rfl <;> decide
    · rename_i escaped
      exact .whole _ (.plain c (not_or.1 escaped).1)
  have read := ofItemsAfter_spelled spelled []
  rw [Utf8.encode_nil, List.nil_append] at read
  rw [unescape, ofItems, sheltered, List.flatMap_def]
  exact read

end Text

namespace Bracket

/-- Nothing separates up to the last quote. -/
theorem piecesFrom_quoted (separator : Char) {quote : Char} (hq : quote ≠ '\\')
    (closers : List Char) {body : Text} (h : Text.staysQuoted quote body = true) (rest : Text) :
    piecesFrom separator (.quoted quote closers) (body ++ quote :: rest) =
      (piecesFrom separator (.plain closers) rest).map
        (·.modifyHead (body ++ [quote] ++ ·)) := by
  have quoted (c : Char) : separates separator (.quoted quote closers) c = false :=
    separates_of_ne_start (by simp [State.start])
  have escaped (c : Char) : separates separator (.escaped quote closers) c = false :=
    separates_of_ne_start (by simp [State.start])
  fun_induction Text.staysQuoted quote body with
  | case1 =>
    exact piecesFrom_step (quoted quote) (next?_eq_some_iff.2 (.ends closers hq)) rest
  | case2 => cases h
  | case3 c body ih =>
    exact piecesFrom_step_append (quoted _) (next?_eq_some_iff.2 (.escapes quote closers))
      (piecesFrom_step_append (escaped c) (next?_eq_some_iff.2 (.hides quote c closers)) (ih h))
  | case4 c body single hidden ih =>
    obtain ⟨other, later⟩ : c ≠ quote ∧ Text.staysQuoted quote body = true := by simpa using h
    exact piecesFrom_step_append (quoted c)
      (next?_eq_some_iff.2 (.stays closers (Text.ne_backslash single hidden) other)) (ih later)

/-- A quoted text is passed as a whole, whatever stands behind it. -/
theorem piecesFrom_quotation (separator : Char) {quote : Char} (hq : isQuote quote = true)
    {body : Text} (h : Text.staysQuoted quote body = true) (rest : Text) :
    piecesFrom separator .start (Text.quotation quote body ++ rest) =
      (piecesFrom separator .start rest).map
        (·.modifyHead (Text.quotation quote body ++ ·)) := by
  have outside : separates separator .start quote = false := by simp [separates, hq]
  have opens : State.start.next? quote = some (.quoted quote []) :=
    next?_eq_some_iff.2 (.quotes [] hq)
  have within := piecesFrom_quoted separator (ne_backslash_of_isQuote hq) [] h rest
  rw [Text.quotation, List.cons_append, List.append_assoc, List.singleton_append]
  exact piecesFrom_step_append outside opens within

/-- A quoted text is one piece. -/
theorem split_quotation {separator quote : Char} (hq : isQuote quote = true) {body : Text}
    (h : Text.staysQuoted quote body = true) :
    split separator (Text.quotation quote body) = some [Text.quotation quote body] := by
  have quotes : quote = '"' ∨ quote = '\'' := isQuote_iff.1 hq
  have solid : Text.isBlank quote = false := by rcases quotes with rfl | rfl <;> decide
  refine split_eq_singleton_iff.2 ⟨?_, ?_, ?_⟩
  · simp [Text.isAllBlank, Text.quotation, solid]
  · have whole := piecesFrom_quotation separator hq h []
    simpa [pieces, piecesFrom] using whole
  · have front : (Text.quotation quote body).head? = some quote := rfl
    have back : (Text.quotation quote body).getLast? = some quote := Text.getLast?_enclosed ..
    rw [Text.trim, Text.trimStart_of_head? front solid, Text.trimEnd_of_getLast? back solid]

end Bracket

end ConstantDump
