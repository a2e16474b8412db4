import ConstantDump.Proofs.Bracket.Split
import ConstantDump.Proofs.Text.Trim

/-!
Splitting texts with blanks around the pieces.

* `split_join_spaced`: texts that are one piece each come back from their join, whatever blanks
  stand around them; so do empty ones, where there is a separator beside them;
* `split_join`: the case of blanks behind each separator;
* `isSome_split`: the texts that split are the balanced ones.
-/

namespace ConstantDump

namespace Bracket

structure Spaced where
  before : Text
  text : Text
  after : Text
  blank_before : before.all Text.isBlank = true
  blank_after : after.all Text.isBlank = true

def Spaced.written (e : Spaced) : Text := e.before ++ (e.text ++ e.after)

theorem pieces_blanks {separator : Char} (hs : Text.isBlank separator = false) {blanks : Text}
    (h : blanks.all Text.isBlank) : pieces separator blanks = some [blanks] := by
  have whole := piecesFrom_blanks hs h []
  rw [List.append_nil] at whole
  rw [pieces, whole]
  simp [piecesFrom]

/-- Blanks around one piece leave one piece. -/
theorem pieces_written {separator : Char} (hs : Text.isBlank separator = false) {e : Spaced}
    (h : pieces separator e.text = some [e.text]) :
    pieces separator e.written = some [e.written] := by
  have behind := pieces_blanks hs e.blank_after
  rw [pieces] at h behind
  rw [pieces, Spaced.written, piecesFrom_blanks hs e.blank_before, piecesFrom_piece h, behind]
  rfl

/-- What makes a text one element among others: it is one piece, or there is nothing of it. -/
def IsElement (separator : Char) (t : Text) : Prop :=
  split separator t = some [t] ∨ t = []

theorem IsElement.pieces_eq {separator : Char} {t : Text} (h : IsElement separator t) :
    pieces separator t = some [t] := by
  rcases h with one | rfl
  · exact (split_eq_singleton_iff.1 one).2.1
  · simp [pieces, piecesFrom]

theorem IsElement.trimmed {separator : Char} {t : Text} (h : IsElement separator t) :
    Text.trim t = t := by
  rcases h with one | rfl
  · exact (split_eq_singleton_iff.1 one).2.2
  · rfl

/-- Elements are recovered from their join. A single one has to be there. -/
theorem split_join_spaced {separator : Char} (hs : isPlain separator = true)
    (hn : Text.isBlank separator = false) {elements : List Spaced} (some_element : elements ≠ [])
    (h : ∀ e ∈ elements, split separator e.text = some [e.text] ∨
      e.text = [] ∧ 2 ≤ elements.length) :
    split separator (Text.join [separator] (elements.map Spaced.written)) =
      some (elements.map Spaced.text) := by
  obtain ⟨first, others, rfl⟩ := List.exists_cons_of_ne_nil some_element
  have each : ∀ e ∈ first :: others, IsElement separator e.text := fun e he =>
    (h e he).imp_right And.left
  have apart : pieces separator (Text.join [separator] ((first :: others).map Spaced.written)) =
      some ((first :: others).map Spaced.written) := by
    refine pieces_join hs ?_
    rw [← List.map_cons]
    intro t ht
    obtain ⟨e, he, rfl⟩ := List.mem_map.1 ht
    exact pieces_written hn (each e he).pieces_eq
  have visible : Text.isAllBlank
      (Text.join [separator] ((first :: others).map Spaced.written)) = false := by
    rw [Text.isAllBlank, List.all_eq_false]
    cases others with
    | nil =>
      rcases h first (by simp) with one | ⟨-, two⟩
      · obtain ⟨c, hc, solid⟩ := List.all_eq_false.1 (split_eq_singleton_iff.1 one).1
        exact ⟨c, by simp [Text.join, Spaced.written, hc], solid⟩
      · simp at two
    | cons second others => exact ⟨separator, by simp [Text.join], by simp [hn]⟩
  have trims : ((first :: others).map Spaced.written).map Text.trim =
      (first :: others).map Spaced.text := by
    rw [List.map_map]
    exact List.map_congr_left fun e he =>
      Text.trim_spaced e.blank_before e.blank_after (each e he).trimmed
  rw [split, visible, apart, Option.map_some, trims]
  rfl

theorem join_cons_blanks (separator : Char) (blanks first : Text) (others : List Text) :
    Text.join (separator :: blanks) (first :: others) =
      Text.join [separator] (first :: others.map (blanks ++ ·)) := by
  induction others generalizing first with
  | nil => rfl
  | cons second others ih =>
    have rest := ih second
    cases others <;> simp_all [Text.join]

/-- Texts that are one piece each are recovered from their join. -/
theorem split_join {separator : Char} (hs : isPlain separator = true)
    (hn : Text.isBlank separator = false) {blanks : Text} (hb : blanks.all Text.isBlank = true)
    {texts : List Text} (h : ∀ t ∈ texts, split separator t = some [t]) :
    split separator (Text.join (separator :: blanks) texts) = some texts := by
  cases texts with
  | nil => rfl
  | cons first others =>
    obtain ⟨here, behind⟩ := List.forall_mem_cons.1 h
    have whole := split_join_spaced hs hn (List.cons_ne_nil (Spaced.mk [] first [] rfl rfl)
      (others.map fun t => Spaced.mk blanks t [] hb rfl))
      (by simpa [here] using fun t ht => Or.inl (behind t ht))
    simpa [join_cons_blanks, Spaced.written, Function.comp_def] using whole

/-- What splits is what is balanced. -/
theorem isSome_split {separator : Char} (hn : Text.isBlank separator = false) (t : Text) :
    (split separator t).isSome = isBalanced t := by
  rw [isBalanced, ← isSome_piecesFrom separator]
  unfold split
  split
  · rename_i blank
    show true = (pieces separator t).isSome
    rw [pieces_blanks hn blank]
    rfl
  · rw [Option.isSome_map]
    rfl

/-- A text that splits brings the scan back outside of everything. -/
theorem after?_of_split {separator : Char} (hn : Text.isBlank separator = false) {t : Text}
    {ps : List Text} (h : split separator t = some ps) : after? .start t = some .start := by
  rw [← closes_iff_after?]
  show isBalanced t = true
  rw [← isSome_split hn, h]
  rfl

end Bracket

end ConstantDump
