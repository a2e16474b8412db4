import ConstantDump.Proofs.Reader.Failure
import ConstantDump.Proofs.Reader.LineNumber

/-!
Dumps in pieces. A text that a line feed ends can be read before another one, with one reader
and into one scope. Main statement, `readInto_append`: that leaves what reading both as one text
leaves, and an error differs in its line number only.
-/

namespace ConstantDump

namespace Text

/-- Behind a text that is empty or ends in a line feed, lines begin anew. -/
theorem lines_append_of_ended {first : Text} (ended : first = [] ∨ first.getLast? = some '\n')
    (second : Text) : lines (first ++ second) = lines first ++ lines second := by
  rcases ended with rfl | last
  · rfl
  · obtain ⟨begin, rfl⟩ := List.getLast?_eq_some_iff.1 last
    rw [List.append_assoc, List.singleton_append, lines_append]

end Text

namespace Reader

/-- Reading a text that is empty or ends in a line feed, and then a second one with the reader
and the scope that the first one leaves, against reading both as one text, whatever the reader
has read before. Where the first one fails, the whole fails just so; where both succeed, the
whole leaves the same reader, with its open enumerations and counts, and the same scope. Where
the second one fails, the whole leaves the same and fails in the same way at the same line: in
the whole, its number is greater by the number of lines in the first text. -/
theorem readInto_append (reader : Reader) (s : Scope) {first : Text}
    (ended : first = [] ∨ first.getLast? = some '\n') (second : Text) :
    let earlier := reader.readInto first s
    let later := earlier.reader.readInto second earlier.scope
    let whole := reader.readInto (first ++ second) s
    Text.lines (first ++ second) = Text.lines first ++ Text.lines second ∧
    (whole.result = .ok () ↔ earlier.result = .ok () ∧ later.result = .ok ()) ∧
    (∀ error, earlier.result = .error error → whole = earlier) ∧
    (earlier.result = .ok () → later.result = .ok () → whole = later) ∧
    (earlier.result = .ok () → ∀ error, later.result = .error error →
      ∃ number, error.lineNumber? = some number ∧
        whole = ⟨later.reader, later.scope,
          .error (error.withNumber (number + (Text.lines first).length))⟩) := by
  intro earlier later whole
  have cut := Text.lines_append_of_ended ended second
  have whole_eq : whole = reader.readLines 1 (Text.lines first ++ Text.lines second) s := by
    rw [← cut]
    rfl
  rcases run : reader.readLines 1 (Text.lines first) s with ⟨mid, t, error | _⟩
  · have failed : earlier = ⟨mid, t, .error error⟩ := run
    have same : whole = earlier := by
      rw [whole_eq, failed, readLines_append_of_error run]
    refine ⟨cut, ?_, fun _ _ => same, ?_, ?_⟩ <;> simp [same, failed]
  · have read : earlier = ⟨mid, t, .ok ()⟩ := run
    have goes_on : whole = mid.readLines (1 + (Text.lines first).length) (Text.lines second) t := by
      rw [whole_eq, readLines_append_of_ok run]
    have later_eq : later = mid.readLines 1 (Text.lines second) t := by
      show earlier.reader.readLines 1 (Text.lines second) earlier.scope = _
      rw [read]
    rcases run' : mid.readLines 1 (Text.lines second) t with ⟨last, s', error | _⟩
    · obtain ⟨place, -, at_line, others⟩ := readLines_error_number run'
      have failed : later = ⟨last, s', .error error⟩ := later_eq.trans run'
      have shifted : whole = ⟨last, s',
          .error (error.withNumber (1 + place + (Text.lines first).length))⟩ := by
        rw [goes_on, others, Nat.add_right_comm]
      refine ⟨cut, ?_, ?_, ?_, fun _ failure h => ?_⟩
      · simp [shifted, failed]
      · simp [read]
      · simp [failed]
      · obtain rfl : error = failure := by simpa [failed] using h
        exact ⟨1 + place, at_line, by rw [shifted, failed]⟩
    · have done : later = ⟨last, s', .ok ()⟩ := later_eq.trans run'
      have same : whole = later := by
        rw [goes_on, done, readLines_ok_number run']
      refine ⟨cut, ?_, ?_, fun _ _ => same, ?_⟩ <;> simp [same, done, read]

/-- The beginning of a dump that is cut between two enumerators. -/
def openPart : Text := "enum E \x7b\r\nA = 1,\n".toList

/-- The rest of it, which ends in a line that is no enumerator. -/
def brokenPart : Text := "B = 2\n???".toList

theorem readInto_append_enumeration :
    let earlier := (standard .default).readInto openPart .empty
    let later := earlier.reader.readInto brokenPart earlier.scope
    let whole := (standard .default).readInto (openPart ++ brokenPart) .empty
    openPart.getLast? = some '\n' ∧ earlier.result = .ok () ∧
      failedAt? later.result = some 2 ∧ failedAt? whole.result = some 4 ∧
      whole.scope = later.scope := by
  intro earlier later whole
  have ended : openPart.getLast? = some '\n' := by decide +kernel
  have read : earlier.result = .ok () := ok_of_isOk (by decide +kernel)
  have failed : failedAt? later.result = some 2 := by decide +kernel
  have count : (Text.lines openPart).length = 2 := by decide +kernel
  obtain ⟨-, -, -, -, failure⟩ :=
    readInto_append (standard .default) .empty (.inr ended) brokenPart
  rcases run : later.result with error | _
  · obtain ⟨number, at_line, same⟩ := failure read error run
    have whole_eq : whole = ⟨later.reader, later.scope,
        .error (error.withNumber (number + (Text.lines openPart).length))⟩ := same
    have second_line : failedAt? (.error error) = some 2 := run ▸ failed
    obtain rfl : number = 2 := Option.some.inj (at_line.symm.trans second_line)
    rw [whole_eq, count]
    dsimp only
    exact ⟨ended, read, second_line, ReadError.lineNumber?_withNumber at_line 4, rfl⟩
  · rw [run] at failed
    cases failed

end Reader

end ConstantDump
