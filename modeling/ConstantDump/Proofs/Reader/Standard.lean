import ConstantDump.Proofs.Line.Kinds
import ConstantDump.Proofs.Reader.Line
import ConstantDump.Reader.Dump

/-!
The standard reader, line by line. Its state is the open enumeration and two counts; each
line goes through its four members in turn.

* `line_standardWith_ok`: the steps of a line that is read;
* `line_standardWith_error`: which member refuses a line, and what is left then;
* `readLines_ok`: what every line keeps, a run keeps;
* `readLines_error`: a run that fails is one that succeeds and a line that fails.
-/

namespace ConstantDump.Reader

/-- The standard reader in the midst of a dump. -/
def standardWith (config : Config) (opened : Option Text) (anonymous literals : Counters) :
    Reader :=
  .group config [.records, .enums opened anonymous, .constants, .literals literals]

variable {config : Config} {opened : Option Text} {anonymous literals : Counters}
variable {number : Nat} {line : Text} {s : Scope}

/-! ## One line -/

/-- The steps of a line that is not refused: each member goes on with the scope that the one
before it leaves. -/
theorem line_standardWith_ok {accepted : Bool}
    (h : ((standardWith config opened anonymous literals).line number line s).result =
      .ok accepted) :
    ∃ opened' anonymous' s₁ s₂ s₃,
      Stored (recordItem? line s) s s₁ ∧
      EnumsStep line opened anonymous s₁ opened' anonymous' s₂ ∧
      Stored (constantItem? line s₂) s₂ s₃ ∧
      Stored (literalItem? literals line s₃) s₃
        ((standardWith config opened anonymous literals).line number line s).scope ∧
      ((standardWith config opened anonymous literals).line number line s).state =
        standardWith config opened' anonymous' (literalCounters literals line) := by
  rw [standardWith, Reader.line] at h ⊢
  simp only at h ⊢
  cases hall : (lineAll [records, enums opened anonymous, constants, .literals literals]
      number line s).result with
  | error error =>
    rw [hall] at h
    cases h
  | ok recognized =>
    obtain ⟨_, _, records, others₁, -⟩ := lineAll_cons_ok hall
    obtain ⟨_, _, enums, others₂, -⟩ := lineAll_cons_ok others₁
    obtain ⟨_, _, constants, others₃, -⟩ := lineAll_cons_ok others₂
    obtain ⟨_, _, literals, -, -⟩ := lineAll_cons_ok others₃
    rw [lineAll_cons_of_ok records, lineAll_cons_of_ok enums, lineAll_cons_of_ok constants,
      lineAll_cons_of_ok literals]
    simp only [Reader.line, lineRecords_eq, lineConstants_eq, lineLiterals_eq] at *
    obtain ⟨opened', anonymous', state, step⟩ := lineEnums_ok enums
    refine ⟨opened', anonymous', _, _, _, storedItem_ok records, step, storedItem_ok constants,
      storedItem_ok literals, ?_⟩
    simp only [storedItem_state, state, lineAll, declined, standardWith]

/-- The steps up to the member that refuses a line, and the scope they leave: the one that
this member found, since it changes nothing itself. -/
inductive Refused (line : Text) (opened : Option Text) (anonymous literals : Counters)
    (s : Scope) : Scope → Prop
  | records (item : Unstored (recordItem? line s) s) : Refused line opened anonymous literals s s
  | enums {s₁ : Scope} {number : Nat} {error : ReadError}
      (records : Stored (recordItem? line s) s s₁)
      (refusal : (lineEnums opened anonymous number line s₁).result = .error error) :
      Refused line opened anonymous literals s s₁
  | constants {s₁ s₂ : Scope} {opened' : Option Text} {anonymous' : Counters}
      (records : Stored (recordItem? line s) s s₁)
      (enums : EnumsStep line opened anonymous s₁ opened' anonymous' s₂)
      (item : Unstored (constantItem? line s₂) s₂) : Refused line opened anonymous literals s s₂
  | literals {s₁ s₂ s₃ : Scope} {opened' : Option Text} {anonymous' : Counters}
      (records : Stored (recordItem? line s) s s₁)
      (enums : EnumsStep line opened anonymous s₁ opened' anonymous' s₂)
      (constants : Stored (constantItem? line s₂) s₂ s₃)
      (item : Unstored (literalItem? literals line s₃) s₃) :
      Refused line opened anonymous literals s s₃

theorem line_standardWith_error {error : ReadError}
    (h : ((standardWith config opened anonymous literals).line number line s).result =
      .error error) :
    error.lineNumber? = some number ∧
      Refused line opened anonymous literals s
        ((standardWith config opened anonymous literals).line number line s).scope := by
  rw [standardWith, Reader.line] at h ⊢
  simp only at h ⊢
  cases hall : (lineAll [records, enums opened anonymous, constants, .literals literals]
      number line s).result with
  | ok recognized =>
    rw [hall] at h
    cases h
  | error failure =>
    rw [hall] at h
    obtain rfl : failure = error := Except.error.inj h
    rcases lineAll_cons_error hall with refusal | ⟨_, records, hall⟩
    · rw [lineAll_cons_of_error refusal]
      simp only [Reader.line, lineRecords_eq] at refusal ⊢
      obtain ⟨item, left, at_line⟩ := storedItem_error refusal
      rw [left]
      exact ⟨at_line, .records item⟩
    rw [lineAll_cons_of_ok records]
    rcases lineAll_cons_error hall with refusal | ⟨_, enums, hall⟩
    · rw [lineAll_cons_of_error refusal]
      simp only [Reader.line, lineRecords_eq] at records refusal ⊢
      obtain ⟨left, at_line⟩ := lineEnums_error refusal
      rw [left]
      exact ⟨at_line, .enums (storedItem_ok records) refusal⟩
    rw [lineAll_cons_of_ok enums]
    rcases lineAll_cons_error hall with refusal | ⟨_, constants, hall⟩
    · rw [lineAll_cons_of_error refusal]
      simp only [Reader.line, lineRecords_eq, lineConstants_eq] at records enums refusal ⊢
      obtain ⟨opened', anonymous', -, step⟩ := lineEnums_ok enums
      obtain ⟨item, left, at_line⟩ := storedItem_error refusal
      rw [left]
      exact ⟨at_line, .constants (storedItem_ok records) step item⟩
    rw [lineAll_cons_of_ok constants]
    rcases lineAll_cons_error hall with refusal | ⟨_, -, none⟩
    · rw [lineAll_cons_of_error refusal]
      simp only [Reader.line, lineRecords_eq, lineConstants_eq, lineLiterals_eq]
        at records enums constants refusal ⊢
      obtain ⟨opened', anonymous', -, step⟩ := lineEnums_ok enums
      obtain ⟨item, left, at_line⟩ := storedItem_error refusal
      rw [left]
      exact ⟨at_line, .literals (storedItem_ok records) step (storedItem_ok constants) item⟩
    · cases none

/-! ## Runs -/

/-- Reading goes on after a line that is accepted. -/
theorem readLines_cons {reader : Reader} {rest : List Text}
    (h : (reader.line number line s).result = .ok true) :
    reader.readLines number (line :: rest) s =
      (reader.line number line s).state.readLines (number + 1) rest
        (reader.line number line s).scope := by
  rw [readLines]
  simp only [h]

/-- A run that succeeds accepts its first line and goes on with the others. -/
theorem readLines_cons_ok {reader reader' : Reader} {rest : List Text} {s' : Scope}
    (h : reader.readLines number (line :: rest) s = ⟨reader', s', .ok ()⟩) :
    (reader.line number line s).result = .ok true ∧
      (reader.line number line s).state.readLines (number + 1) rest
        (reader.line number line s).scope = ⟨reader', s', .ok ()⟩ := by
  cases hr : (reader.line number line s).result with
  | error error => simp [readLines, hr] at h
  | ok accepted =>
    cases accepted with
    | false => simp [readLines, hr] at h
    | true =>
      rw [readLines_cons hr] at h
      exact ⟨rfl, h⟩

/-- Behind lines that are read, a run goes on. -/
theorem readLines_append_of_ok {reader mid : Reader} {before : List Text} {t : Scope}
    (h : reader.readLines number before s = ⟨mid, t, .ok ()⟩) (after : List Text) :
    reader.readLines number (before ++ after) s =
      mid.readLines (number + before.length) after t := by
  induction before generalizing reader number s with
  | nil =>
    cases h
    rfl
  | cons line rest ih =>
    obtain ⟨accepted, later⟩ := readLines_cons_ok h
    have number_eq : number + (line :: rest).length = number + 1 + rest.length := by
      simp only [List.length_cons]
      omega
    rw [List.cons_append, readLines_cons accepted, ih later, number_eq]

/-- Lines behind one that ends a run are not read. -/
theorem readLines_append_of_error {reader mid : Reader} {before : List Text} {t : Scope}
    {error : ReadError} (h : reader.readLines number before s = ⟨mid, t, .error error⟩)
    (after : List Text) :
    reader.readLines number (before ++ after) s = ⟨mid, t, .error error⟩ := by
  induction before generalizing reader number s with
  | nil => cases h
  | cons line rest ih =>
    rw [List.cons_append]
    cases hr : (reader.line number line s).result with
    | error failure =>
      simp only [readLines, hr] at h ⊢
      exact h
    | ok accepted =>
      cases accepted with
      | false =>
        simp only [readLines, hr] at h ⊢
        exact h
      | true =>
        rw [readLines_cons hr] at h ⊢
        exact ih h

/-- A run that succeeds is one over the first lines and one over the others. -/
theorem readLines_append_ok {reader reader' : Reader} {before after : List Text} {s' : Scope}
    (h : reader.readLines number (before ++ after) s = ⟨reader', s', .ok ()⟩) :
    ∃ mid t, reader.readLines number before s = ⟨mid, t, .ok ()⟩ ∧
      mid.readLines (number + before.length) after t = ⟨reader', s', .ok ()⟩ := by
  rcases first : reader.readLines number before s with ⟨mid, t, error | _⟩
  · rw [readLines_append_of_error first] at h
    cases h
  · exact ⟨mid, t, rfl, by rw [← readLines_append_of_ok first, h]⟩

theorem ok_of_isOk {result : Except ReadError Unit} (h : result.isOk = true) :
    result = .ok () := by
  cases result with
  | error error => cases h
  | ok _ => rfl

/-- What holds before a run and is kept by every line holds after the run. The lines that
were read count as part of it. -/
theorem readLines_ok {P : List Text → Reader → Scope → Prop} (done : List Text)
    (step : ∀ done reader number line s, P done reader s →
      (reader.line number line s).result = .ok true →
      P (done ++ [line]) (reader.line number line s).state (reader.line number line s).scope)
    {lines : List Text} {reader reader' : Reader} {s' : Scope} (start : P done reader s)
    (h : reader.readLines number lines s = ⟨reader', s', .ok ()⟩) :
    P (done ++ lines) reader' s' := by
  induction lines generalizing done reader number s with
  | nil =>
    cases h
    rw [List.append_nil]
    exact start
  | cons line rest ih =>
    obtain ⟨accepted, later⟩ := readLines_cons_ok h
    have := ih (done ++ [line]) (step done reader number line s start accepted) later
    rwa [List.append_assoc] at this

/-- The standard reader stays one. -/
theorem readLines_standardWith {lines : List Text} {reader : Reader} {s' : Scope}
    (h : (standardWith config opened anonymous literals).readLines number lines s =
      ⟨reader, s', .ok ()⟩) :
    ∃ opened' anonymous' literals',
      reader = standardWith config opened' anonymous' literals' := by
  refine readLines_ok [] (P := fun _ reader _ => ∃ opened' anonymous' literals',
    reader = standardWith config opened' anonymous' literals') ?_
    ⟨opened, anonymous, literals, rfl⟩ h
  rintro done reader number line s ⟨opened, anonymous, literals, rfl⟩ accepted
  obtain ⟨opened', anonymous', _, _, _, -, -, -, -, state⟩ := line_standardWith_ok accepted
  exact ⟨opened', anonymous', _, state⟩

/-- A run that fails is a run that succeeds, and a line that is refused or, in a strict
group, not recognised. -/
theorem readLines_error {reader reader' : Reader} {lines : List Text} {s' : Scope}
    {error : ReadError} (h : reader.readLines number lines s = ⟨reader', s', .error error⟩) :
    ∃ before line after mid t, lines = before ++ line :: after ∧
      reader.readLines number before s = ⟨mid, t, .ok ()⟩ ∧
      s' = (mid.line (number + before.length) line t).scope ∧
      ((mid.line (number + before.length) line t).result = .error error ∨
        (mid.line (number + before.length) line t).result = .ok false ∧
          error = .unrecognized line (number + before.length)) := by
  induction lines generalizing reader number s with
  | nil => cases h
  | cons line rest ih =>
    cases hr : (reader.line number line s).result with
    | error failure =>
      simp only [readLines, hr] at h
      cases h
      exact ⟨[], line, rest, reader, s, rfl, rfl, rfl, .inl hr⟩
    | ok accepted =>
      cases accepted with
      | false =>
        simp only [readLines, hr] at h
        cases h
        exact ⟨[], line, rest, reader, s, rfl, rfl, rfl, .inr ⟨hr, rfl⟩⟩
      | true =>
        rw [readLines_cons hr] at h
        obtain ⟨before, last, after, mid, t, hl, hrun, hs, he⟩ := ih h
        have number_eq : number + (line :: before).length = number + 1 + before.length := by
          simp only [List.length_cons]
          omega
        refine ⟨line :: before, last, after, mid, t, by rw [hl]; rfl, ?_, ?_⟩
        · rw [readLines_cons hr]
          exact hrun
        · rw [number_eq]
          exact ⟨hs, he⟩

end ConstantDump.Reader
