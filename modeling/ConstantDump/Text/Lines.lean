import ConstantDump.Text.Basic

/-!
The lines of a text. Main statement: a text that ends in a line feed can be read
before another one, and the lines of both are the lines of the two together.
-/

namespace ConstantDump.Text

/-- The line without one carriage return at its end. -/
def dropReturn (line : Text) : Text := (['\r'].isSuffixOf? line).getD line

/-- The lines of a text whose last piece no line feed ends: each earlier one loses a
carriage return, the last one keeps it and counts unless it is empty. -/
def linesOfPieces : List Text → List Text
  | [] => []
  | [last] => if last = [] then [] else [last]
  | piece :: next :: rest => dropReturn piece :: linesOfPieces (next :: rest)

/-- The lines of a text, each ended by a line feed or by the end of the text. -/
def lines (t : Text) : List Text := linesOfPieces (t.splitOnP (· == '\n'))

theorem linesOfPieces_append {ps qs : List Text} (hq : qs ≠ []) :
    linesOfPieces (ps ++ qs) = ps.map dropReturn ++ linesOfPieces qs := by
  induction ps with
  | nil => rfl
  | cons p ps ih =>
    cases h : ps ++ qs with
    | nil => simp_all
    | cons r rs => rw [List.cons_append, h, linesOfPieces, ← h, ih]; rfl

theorem lines_append (s t : Text) : lines (s ++ '\n' :: t) = lines (s ++ ['\n']) ++ lines t := by
  have split (u : Text) : (s ++ '\n' :: u).splitOnP (· == '\n') =
      s.splitOnP (· == '\n') ++ u.splitOnP (· == '\n') :=
    List.splitOnP_append_cons s u rfl
  have first : ([] : Text).splitOnP (· == '\n') = [[]] := List.splitOnP_nil ..
  unfold lines
  rw [split, split, linesOfPieces_append (List.splitOnP_ne_nil _ _),
    linesOfPieces_append (List.splitOnP_ne_nil _ _), first]
  simp [linesOfPieces]

end ConstantDump.Text
