import ConstantDump.Proofs.Reader.Standard

/-!
Line numbers. They occur in errors, and nowhere else.

* `line_number`: what a reader does with a line does not depend on the number of the line;
* `lineNumber?_of_line_error`: the error of a line has the number of the line;
* `readLines_number`: nor does a run, whatever number it begins with;
* `readLines_error_number`: the error of a run has the number of one of its lines, counted from
  the number that the run begins with.
-/

namespace ConstantDump

/-- The error with another line number, if it has one. -/
def ReadError.withNumber (number : Nat) : ReadError → ReadError
  | .unrecognized line _ => .unrecognized line number
  | .notAnEnumerator line _ => .notAnEnumerator line number
  | .scope error _ => .scope error number
  | .enumeration error _ => .enumeration error number
  | .noSingleItem line => .noSingleItem line
  | .unsupported reader => .unsupported reader

@[simp] theorem ReadError.withNumber_withNumber (error : ReadError) (m n : Nat) :
    (error.withNumber m).withNumber n = error.withNumber n := by
  cases error <;> rfl

theorem ReadError.lineNumber?_withNumber {error : ReadError} {m : Nat}
    (h : error.lineNumber? = some m) (n : Nat) : (error.withNumber n).lineNumber? = some n := by
  cases error <;> first | rfl | cases h

def Outcome.withNumber {σ : Type} (number : Nat) (o : Outcome σ) : Outcome σ :=
  ⟨o.state, o.scope, o.result.mapError (·.withNumber number)⟩

def DumpOutcome.withNumber (number : Nat) (o : DumpOutcome) : DumpOutcome :=
  ⟨o.reader, o.scope, o.result.mapError (·.withNumber number)⟩

namespace Reader

variable {text : Text} {s : Scope}

theorem storedItem_number (state : Reader) (s : Scope) (item : Option (Text × Entry)) (m n : Nat) :
    storedItem state s m item = (storedItem state s n item).withNumber m := by
  cases item with
  | none => rfl
  | some item =>
    simp only [storedItem, stored]
    split <;> rfl

theorem addEnumerator_number (opened text : Text) (s : Scope) (m n : Nat) :
    addEnumerator opened m text s =
      (addEnumerator opened n text s).mapError (·.withNumber m) := by
  unfold addEnumerator
  split
  · rfl
  · split
    · rfl
    · split <;> rfl

theorem lineEnums_number (opened : Option Text) (anonymous : Counters) (text : Text) (s : Scope)
    (m n : Nat) :
    lineEnums opened anonymous m text s = (lineEnums opened anonymous n text s).withNumber m := by
  unfold lineEnums
  split
  · rfl
  · simp only [openEnum]
    split <;> rfl
  · rfl
  · split
    · rfl
    · split
      · rfl
      · rename_i name opening closing blank
        rw [addEnumerator_number name text s m n]
        cases addEnumerator name n text s <;> rfl

mutual

/-- The number of a line only shows in the error. -/
theorem line_number (m n : Nat) {text : Text} {s : Scope} :
    (reader : Reader) → reader.line m text s = (reader.line n text s).withNumber m
  | .constants => by
    simp only [Reader.line, lineConstants_eq]
    exact storedItem_number ..
  | .enums opened anonymous => by
    simp only [Reader.line]
    exact lineEnums_number ..
  | .records => by
    simp only [Reader.line, lineRecords_eq]
    exact storedItem_number ..
  | .literals counters => by
    simp only [Reader.line, lineLiterals_eq]
    exact storedItem_number ..
  | .group config members => by
    simp only [Reader.line]
    rw [lineAll_number m n members]
    simp only [Outcome.withNumber]
    cases (lineAll members n text s).result <;> rfl

theorem lineAll_number (m n : Nat) {text : Text} {s : Scope} :
    (readers : List Reader) → lineAll readers m text s = (lineAll readers n text s).withNumber m
  | [] => by
    rw [lineAll, lineAll]
    rfl
  | reader :: rest => by
    rw [lineAll, lineAll, line_number m n reader]
    simp only [Outcome.withNumber]
    cases (reader.line n text s).result with
    | error error => rfl
    | ok recognized =>
      simp only [Except.mapError]
      rw [lineAll_number m n rest]
      simp only [Outcome.withNumber]
      cases (lineAll rest n text (reader.line n text s).scope).result <;> rfl

end

mutual

/-- The error of a line has the line's number. -/
theorem lineNumber?_of_line_error {number : Nat} {text : Text} {s : Scope} {error : ReadError} :
    (reader : Reader) → (reader.line number text s).result = .error error →
      error.lineNumber? = some number
  | .constants, h => by
    simp only [Reader.line, lineConstants_eq] at h
    exact (storedItem_error h).2.2
  | .enums opened anonymous, h => by
    simp only [Reader.line] at h
    exact (lineEnums_error h).2
  | .records, h => by
    simp only [Reader.line, lineRecords_eq] at h
    exact (storedItem_error h).2.2
  | .literals counters, h => by
    simp only [Reader.line, lineLiterals_eq] at h
    exact (storedItem_error h).2.2
  | .group config members, h => by
    simp only [Reader.line] at h
    cases hr : (lineAll members number text s).result with
    | error failure =>
      rw [hr] at h
      obtain rfl : failure = error := Except.error.inj h
      exact lineNumber?_of_lineAll_error members hr
    | ok recognized =>
      rw [hr] at h
      cases h

theorem lineNumber?_of_lineAll_error {number : Nat} {text : Text} {s : Scope}
    {error : ReadError} :
    (readers : List Reader) → (lineAll readers number text s).result = .error error →
      error.lineNumber? = some number
  | [], h => by
    rw [lineAll] at h
    cases h
  | reader :: rest, h => by
    rcases lineAll_cons_error h with first | ⟨_, _, others⟩
    · exact lineNumber?_of_line_error reader first
    · exact lineNumber?_of_lineAll_error rest others

end

/-- Two runs that begin with the same line, and go on alike when it is accepted, are alike. -/
theorem readLines_cons_congr {reader : Reader} {rest rest' : List Text} {m n k : Nat}
    (later : ∀ state t, reader.line n text s = ⟨state, t, .ok true⟩ →
      (state.readLines (m + 1) rest t).withNumber k =
        (state.readLines (n + 1) rest' t).withNumber k) :
    (reader.readLines m (text :: rest) s).withNumber k =
      (reader.readLines n (text :: rest') s).withNumber k := by
  rw [readLines, readLines, line_number m n reader]
  rcases here : reader.line n text s with ⟨state, t, error | accepted⟩
  · simp [Outcome.withNumber, DumpOutcome.withNumber, Except.mapError]
  · cases accepted with
    | false => rfl
    | true => exact later state t here

/-- The number that a run begins with only shows in its error. -/
theorem readLines_number (reader : Reader) (lines : List Text) (s : Scope) (m n k : Nat) :
    (reader.readLines m lines s).withNumber k = (reader.readLines n lines s).withNumber k := by
  induction lines generalizing reader s m n with
  | nil => rfl
  | cons text rest ih => exact readLines_cons_congr fun state t _ => ih state t (m + 1) (n + 1)

/-- A run that succeeds does so whatever number it begins with. -/
theorem readLines_ok_number {reader reader' : Reader} {lines : List Text} {s' : Scope} {m : Nat}
    (h : reader.readLines m lines s = ⟨reader', s', .ok ()⟩) (n : Nat) :
    reader.readLines n lines s = ⟨reader', s', .ok ()⟩ := by
  have same := readLines_number reader lines s n m 0
  rw [h] at same
  rcases run : reader.readLines n lines s with ⟨state, t, error | _⟩
  · rw [run] at same
    cases congrArg DumpOutcome.result same
  · rw [run] at same
    exact same

/-- A run that fails does so at one of its lines, whatever number it begins with. -/
theorem readLines_error_number {reader reader' : Reader} {lines : List Text} {s' : Scope}
    {error : ReadError} {m : Nat} (h : reader.readLines m lines s = ⟨reader', s', .error error⟩) :
    ∃ place < lines.length, error.lineNumber? = some (m + place) ∧
      ∀ n, reader.readLines n lines s =
        ⟨reader', s', .error (error.withNumber (n + place))⟩ := by
  induction lines generalizing reader m s with
  | nil => cases h
  | cons text rest ih =>
    have numbered (n : Nat) :
        reader.line n text s = (reader.line m text s).withNumber n := line_number n m reader
    rcases here : reader.line m text s with ⟨state, t, failure | accepted⟩
    · simp only [readLines, here] at h
      cases h
      have failed : (reader.line m text s).result = .error error := by rw [here]
      refine ⟨0, Nat.zero_lt_succ _, lineNumber?_of_line_error reader failed, fun n => ?_⟩
      simp [readLines, numbered n, here, Outcome.withNumber, Except.mapError]
    · cases accepted with
      | false =>
        simp only [readLines, here] at h
        cases h
        refine ⟨0, Nat.zero_lt_succ _, rfl, fun n => ?_⟩
        simp [readLines, numbered n, here, Outcome.withNumber, Except.mapError,
          ReadError.withNumber]
      | true =>
        simp only [readLines, here] at h
        obtain ⟨place, inside, at_line, others⟩ := ih h
        refine ⟨place + 1, Nat.succ_lt_succ inside, ?_, fun n => ?_⟩
        · rw [at_line, Nat.add_right_comm, Nat.add_assoc]
        · simp only [readLines, numbered n, here, Outcome.withNumber, Except.mapError, others]
          rw [Nat.add_right_comm, Nat.add_assoc]

end Reader

end ConstantDump
