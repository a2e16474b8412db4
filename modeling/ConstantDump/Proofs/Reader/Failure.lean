import ConstantDump.Proofs.Reader.Standard
import ConstantDump.SourceData

/-!
What a line that fails leaves behind. The members of the standard reader take a line one
after the other, and what one of them has stored stays when a later one refuses the line.
There are three ways for that to happen, and `Trace` lists them. Main statement: a dump that
fails leaves the scope of the lines before the failing one, unless that line leaves a trace;
and it leaves the macros in any case.
-/

namespace ConstantDump.Reader

/-! ## Traces -/

/-- What a line has stored that is refused nevertheless. -/
inductive Trace (line : Text) : Option Text → Counters → Scope → Scope → Prop
  /-- A record between the braces of an enumeration, where it is no enumerator. -/
  | record {opened name fields : Text} {anonymous : Counters} {s t : Scope}
      (record : Line.record? line = some (name, fields)) (closing : Line.closesEnum line = false)
      (step : s.assign name
        (.record (.ofFieldList name fields) ((s.members? name).getD .empty)) = (t, .ok ())) :
      Trace line (some opened) anonymous s t
  /-- An enumerator, when there can be no constant under its whole name. -/
  | enumerator {opened name raw : Text} {value : Int} {anonymous : Counters} {s t : Scope}
      (opening : Line.enumOpening? line = none) (closing : Line.closesEnum line = false)
      (constant : Line.constant? line = some (name, raw))
      (integral : (Literal.decodeIn s raw).integral? = some value)
      (step : s.addEnumerator? opened (Name.splitLast name).2 value = some (.ok t))
      (refused : Unstored (constantItem? line t) t) : Trace line (some opened) anonymous s t
  /-- A new enumeration, when its line has a constant as well that cannot be stored. -/
  | opening {name : Text} {anonymous : Counters} {s t : Scope}
      (opening : Line.enumOpening? line = some name)
      (step : s.assign (storedUnder anonymous name).1
        (.enumeration (.named (Name.splitLast name).2)) = (t, .ok ()))
      (refused : Unstored (constantItem? line t) t) : Trace line none anonymous s t

theorem constant?_of_unstored {line : Text} {s : Scope}
    (h : Unstored (constantItem? line s) s) : ∃ found, Line.constant? line = some found := by
  cases hc : Line.constant? line with
  | none =>
    rw [constantItem?_eq_none hc] at h
    cases h
  | some found => exact ⟨found, rfl⟩

theorem literal?_of_unstored {counters : Counters} {line : Text} {s : Scope}
    (h : Unstored (literalItem? counters line s) s) :
    ∃ found, Line.literal? line = some found := by
  cases hl : Line.literal? line with
  | none =>
    rw [literalItem?_eq_none hl] at h
    cases h
  | some found => exact ⟨found, rfl⟩

/-- The reader of enumerations refuses a record only between braces. -/
theorem opened_of_record_refused {opened : Option Text} {anonymous : Counters} {number : Nat}
    {line : Text} {s : Scope} {found : Text × Text} {error : ReadError}
    (record : Line.record? line = some found)
    (h : (lineEnums opened anonymous number line s).result = .error error) :
    (∃ name, opened = some name) ∧ Line.closesEnum line = false := by
  unfold lineEnums at h
  simp only [Line.enumOpening?_of_record? record] at h
  cases opened with
  | none => cases h
  | some name =>
    refine ⟨⟨name, rfl⟩, ?_⟩
    by_contra closing
    simp only [Bool.not_eq_false] at closing
    simp [closing] at h

/-- A line that is refused leaves the scope as it was, or leaves a trace. -/
theorem Refused.trace {line : Text} {opened : Option Text} {anonymous literals : Counters}
    {s t : Scope} (h : Refused line opened anonymous literals s t) :
    t = s ∨ Trace line opened anonymous s t := by
  have no_record (hr : Line.record? line = none) {s₁ : Scope}
      (records : Stored (recordItem? line s) s s₁) : s₁ = s := by
    rw [recordItem?_eq_none hr] at records
    exact records.eq_of_none
  cases h with
  | records => exact .inl rfl
  | enums records refusal =>
    cases hr : Line.record? line with
    | none => exact .inl (no_record hr records)
    | some found =>
      obtain ⟨⟨name, rfl⟩, closing⟩ := opened_of_record_refused hr refusal
      rw [recordItem?, hr] at records
      cases records with
      | assigned step => exact .inr (.record hr closing step)
  | constants records enums item =>
    obtain ⟨found, hc⟩ := constant?_of_unstored item
    obtain rfl := no_record (Line.record?_of_constant? hc) records
    cases enums with
    | opens opening step => exact .inr (.opening opening step item)
    | adds opening closing constant integral step =>
      exact .inr (.enumerator opening closing constant integral step item)
    | nested => exact .inl rfl
    | outside => exact .inl rfl
    | closes => exact .inl rfl
    | blank => exact .inl rfl
  | literals records enums constants item =>
    obtain ⟨found, hl⟩ := literal?_of_unstored item
    obtain rfl := no_record (Line.record?_of_literal? hl) records
    rw [constantItem?_eq_none (Line.constant?_of_literal? hl)] at constants
    rw [constants.eq_of_none]
    cases enums with
    | opens opening step =>
      rw [Line.enumOpening?_of_literal? hl] at opening
      cases opening
    | adds opening closing constant integral step =>
      rw [Line.constant?_of_literal? hl] at constant
      cases constant
    | nested => exact .inl rfl
    | outside => exact .inl rfl
    | closes => exact .inl rfl
    | blank => exact .inl rfl

/-! ## Every trace is left -/

theorem line_records_of_none {line : Text} (h : Line.record? line = none) (number : Nat)
    (s : Scope) : Reader.records.line number line s = ⟨.records, s, .ok false⟩ := by
  rw [Reader.line, lineRecords_eq, recordItem?_eq_none h]
  rfl

theorem line_constants_of_unstored {line : Text} {s : Scope}
    (h : Unstored (constantItem? line s) s) (number : Nat) :
    ∃ failure, Reader.constants.line number line s =
      ⟨.constants, s, .error (.scope failure number)⟩ := by
  rw [Reader.line, lineConstants_eq]
  exact storedItem_of_unstored h ..

/-- Any line with something in it that is no enumerator is refused between braces. -/
theorem lineEnums_of_no_constant {line opened : Text} {anonymous : Counters} {s : Scope}
    (opening : Line.enumOpening? line = none) (closing : Line.closesEnum line = false)
    (blank : Text.isAllBlank line = false) (constant : Line.constant? line = none) (number : Nat) :
    lineEnums (some opened) anonymous number line s =
      ⟨.enums (some opened) anonymous, s, .error (.notAnEnumerator line number)⟩ := by
  unfold lineEnums
  simp [addEnumerator, opening, closing, blank, constant]

theorem lineEnums_of_enumerator {line opened name raw : Text} {value : Int}
    {anonymous : Counters} {s t : Scope} (opening : Line.enumOpening? line = none)
    (closing : Line.closesEnum line = false) (constant : Line.constant? line = some (name, raw))
    (integral : (Literal.decodeIn s raw).integral? = some value)
    (step : s.addEnumerator? opened (Name.splitLast name).2 value = some (.ok t)) (number : Nat) :
    lineEnums (some opened) anonymous number line s =
      ⟨.enums (some opened) anonymous, t, .ok true⟩ := by
  have blank : Text.isAllBlank line = false := by
    by_contra hb
    rw [Line.constant?_of_isAllBlank (by simpa using hb)] at constant
    cases constant
  unfold lineEnums
  simp [addEnumerator, opening, closing, blank, constant, integral, step]

theorem lineEnums_of_opening {line name : Text} {anonymous : Counters} {s t : Scope}
    (opening : Line.enumOpening? line = some name)
    (step : s.assign (storedUnder anonymous name).1
      (.enumeration (.named (Name.splitLast name).2)) = (t, .ok ())) (number : Nat) :
    lineEnums none anonymous number line s =
      ⟨.enums (some (storedUnder anonymous name).1) (storedUnder anonymous name).2, t,
        .ok true⟩ := by
  unfold storedUnder at step ⊢
  unfold lineEnums
  simp only [opening, openEnum, step]

/-- The scope after a line that leaves a trace is that trace. -/
theorem Trace.left {config : Config} {line : Text} {opened : Option Text}
    {anonymous literals : Counters} {s t : Scope} (h : Trace line opened anonymous s t)
    (number : Nat) :
    ((standardWith config opened anonymous literals).line number line s).scope = t := by
  rw [standardWith, Reader.line]
  show (lineAll _ number line s).scope = t
  cases h with
  | @record opened name fields anonymous s t record closing step =>
    have stored : Reader.records.line number line s = ⟨.records, t, .ok true⟩ := by
      rw [Reader.line, lineRecords_eq, recordItem?, record]
      exact storedItem_of_ok step
    have blank : Text.isAllBlank line = false := by
      by_contra hb
      rw [Line.record?_of_isAllBlank (by simpa using hb)] at record
      cases record
    have refused : (Reader.enums (some opened) anonymous).line number line t =
        ⟨.enums (some opened) anonymous, t, .error (.notAnEnumerator line number)⟩ := by
      rw [Reader.line]
      exact lineEnums_of_no_constant (Line.enumOpening?_of_record? record) closing blank
        (Line.constant?_of_record? record) number
    rw [scope_lineAll_of_ok stored, scope_lineAll_of_error refused]
  | @enumerator opened name raw value anonymous s t opening closing constant integral step
      refused =>
    have none_stored := line_records_of_none (Line.record?_of_constant? constant) number s
    have added : (Reader.enums (some opened) anonymous).line number line s =
        ⟨.enums (some opened) anonymous, t, .ok true⟩ := by
      rw [Reader.line]
      exact lineEnums_of_enumerator opening closing constant integral step number
    obtain ⟨failure, failed⟩ := line_constants_of_unstored refused number
    rw [scope_lineAll_of_ok none_stored, scope_lineAll_of_ok added,
      scope_lineAll_of_error failed]
  | @opening name anonymous s t opening step refused =>
    have none_stored := line_records_of_none (Line.record?_of_enumOpening? opening) number s
    have opens : (Reader.enums none anonymous).line number line s =
        ⟨.enums (some (storedUnder anonymous name).1) (storedUnder anonymous name).2, t,
          .ok true⟩ := by
      rw [Reader.line]
      exact lineEnums_of_opening opening step number
    obtain ⟨failure, failed⟩ := line_constants_of_unstored refused number
    rw [scope_lineAll_of_ok none_stored, scope_lineAll_of_ok opens,
      scope_lineAll_of_error failed]

/-! ## Failing dumps -/

/-- What a run leaves when it fails: the lines before the failing one are read, and the scope
is the one they leave, or a trace in it. -/
theorem readLines_standard_error {config : Config} {opened : Option Text}
    {anonymous literals : Counters} {number : Nat} {lines : List Text} {s s' : Scope}
    {reader : Reader} {error : ReadError}
    (h : (standardWith config opened anonymous literals).readLines number lines s =
      ⟨reader, s', .error error⟩) :
    ∃ before line after opened' anonymous' literals' t, lines = before ++ line :: after ∧
      (standardWith config opened anonymous literals).readLines number before s =
        ⟨standardWith config opened' anonymous' literals', t, .ok ()⟩ ∧
      error.lineNumber? = some (number + before.length) ∧
      s' = ((standardWith config opened' anonymous' literals').line
        (number + before.length) line t).scope ∧
      (s' = t ∨ Trace line opened' anonymous' t s') := by
  obtain ⟨before, line, after, mid, t, hl, run, hs, failed⟩ := readLines_error h
  obtain ⟨opened', anonymous', literals', rfl⟩ := readLines_standardWith run
  rcases failed with refused | ⟨declined, rfl⟩
  · obtain ⟨at_line, refusal⟩ := line_standardWith_error refused
    refine ⟨before, line, after, opened', anonymous', literals', t, hl, run, at_line, hs, ?_⟩
    rw [hs]
    exact refusal.trace
  · refine ⟨before, line, after, opened', anonymous', literals', t, hl, run, rfl, hs, .inl ?_⟩
    rw [hs]
    rw [line_declined _ declined]
    rfl

/-- A dump that fails at a line has read the lines before it. The scope is the one that these
leave just when no trace of the failing line changes it; otherwise it is the trace. Loading
the dump into source data fails the same way and adds no macro. -/
theorem readInto_error {config : Config} {dump : Text} {s : Scope} {outcome : DumpOutcome}
    {error : ReadError} (run : (standard config).readInto dump s = outcome)
    (failed : outcome.result = .error error) :
    ∃ before line after opened anonymous literals t,
      Text.lines dump = before ++ line :: after ∧
      error.lineNumber? = some (before.length + 1) ∧
      (standard config).readLines 1 before s =
        ⟨standardWith config opened anonymous literals, t, .ok ()⟩ ∧
      (outcome.scope = t ↔ ∀ left, Trace line opened anonymous t left → left = t) ∧
      (∀ left, Trace line opened anonymous t left → outcome.scope = left) ∧
      ∀ macros added, (SourceData.mk s macros).load dump added config =
        (⟨outcome.scope, macros⟩, .error error) := by
  obtain ⟨reader, s', result⟩ := outcome
  obtain rfl : result = .error error := failed
  obtain ⟨before, line, after, opened, anonymous, literals, t, hl, before_run, at_line, hs,
    left⟩ := readLines_standard_error run
  have trace (u : Scope) (ht : Trace line opened anonymous t u) : s' = u :=
    hs.trans (ht.left _)
  refine ⟨before, line, after, opened, anonymous, literals, t, hl, ?_, before_run, ?_, trace,
    ?_⟩
  · rw [at_line, Nat.add_comm]
  · constructor
    · intro same u ht
      exact (trace u ht).symm.trans same
    · intro unchanged
      rcases left with same | ht
      · exact same
      · exact unchanged s' ht
  · intro macros added
    simp only [SourceData.load, run]

def failedAt? : Except ReadError Unit → Option Nat
  | .ok () => none
  | .error error => error.lineNumber?

def brokenDump : Text := "A = 1\nB\nC = 2".toList

theorem readInto_error_brokenDump :
    failedAt? ((standard .default).readInto brokenDump .empty).result = some 2 ∧
    ((standard .default).readInto brokenDump .empty).scope =
      .ofList [("A".toList, .value (.int 1))] := by
  have failed : failedAt? ((standard .default).readInto brokenDump .empty).result = some 2 := by
    decide +kernel
  refine ⟨failed, ?_⟩
  cases hr : ((standard .default).readInto brokenDump .empty).result with
  | ok _ =>
    rw [hr] at failed
    cases failed
  | error error =>
    rw [hr] at failed
    obtain ⟨before, line, after, opened, anonymous, literals, t, hl, at_line, run, same, -, -⟩ :=
      readInto_error rfl hr
    have lines : Text.lines brokenDump = ["A = 1".toList, "B".toList, "C = 2".toList] := by
      decide +kernel
    have second : before.length + 1 = 2 := Option.some.inj (at_line.symm.trans failed)
    obtain ⟨first, rfl⟩ := List.length_eq_one_iff.1 (Nat.succ.inj second)
    rw [lines] at hl
    obtain ⟨rfl, rfl, -⟩ : "A = 1".toList = first ∧ "B".toList = line ∧ _ := by simpa using hl
    have untouched : ((standard .default).readInto brokenDump .empty).scope = t := by
      refine same.2 fun left trace => ?_
      cases trace with
      | record record =>
        rw [show Line.record? "B".toList = none by decide] at record
        cases record
      | enumerator _ _ constant =>
        rw [show Line.constant? "B".toList = none by decide] at constant
        cases constant
      | opening opening =>
        rw [show Line.enumOpening? "B".toList = none by decide] at opening
        cases opening
    rw [untouched]
    have scope : ((standard .default).readLines 1 ["A = 1".toList] .empty).scope =
        .ofList [("A".toList, .value (.int 1))] := by decide +kernel
    rw [run] at scope
    exact scope

/-- A record between the braces of an enumeration: the second line fails, and its record is
in the scope all the same. -/
theorem readInto_leaves_record :
    let dump := "enum A \x7b\nP\x7bx\x7d".toList
    let outcome := (standard .default).readInto dump .empty
    let first := (standard .default).readLines 1 ((Text.lines dump).take 1) .empty
    failedAt? outcome.result = some 2 ∧ first.result.isOk = true ∧
      outcome.scope.resolves "P".toList = true ∧ first.scope.resolves "P".toList = false := by
  decide +kernel

end ConstantDump.Reader
