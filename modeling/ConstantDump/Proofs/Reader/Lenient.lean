import ConstantDump.Proofs.Reader.Failure
import ConstantDump.Proofs.Reader.LineNumber

/-!
Groups that accept everything. Such a group reads a dump like any other group that is given only
the lines that some member recognises.

* `readLines_recognized`, `readLines_recognized_error`: the two runs side by side;
* `readLines_of_accepted`: what some group reads, a lenient one reads the same way;
* `readLines_solid`: blank lines make no difference to the standard reader;
* `readLines_lenient`: all of this for the standard reader.
-/

namespace ConstantDump.Reader

/-- The lines that some member of a group recognises, up to one that fails. -/
def recognizedLines (members : List Reader) (number : Nat) : List Text → Scope → List Text
  | [], _ => []
  | text :: rest, s =>
    let outcome := lineAll members number text s
    match outcome.result with
    | .error _ => []
    | .ok true => text :: recognizedLines outcome.state (number + 1) rest outcome.scope
    | .ok false => recognizedLines outcome.state (number + 1) rest outcome.scope

variable {config lenient : Config} {members : List Reader} {number m : Nat} {text : Text}
variable {lines : List Text} {s s' : Scope} {reader : Reader} {error : ReadError}

theorem recognizedLines_sublist : (recognizedLines members number lines s).Sublist lines := by
  induction lines generalizing members number s with
  | nil => exact .slnil
  | cons text rest ih =>
    rw [recognizedLines]
    split
    · exact List.nil_sublist _
    · exact ih.cons_cons text
    · exact ih.cons text

/-! ## One line -/

/-- What a group makes of a line that its members do not refuse. -/
theorem line_group_of_ok {recognized : Bool}
    (h : (lineAll members m text s).result = .ok recognized) (config : Config) (n : Nat) :
    (group config members).line n text s =
      ⟨.group config (lineAll members m text s).state, (lineAll members m text s).scope,
        .ok (config.accepts recognized text)⟩ := by
  rw [Reader.line, lineAll_number n m members]
  simp only [Outcome.withNumber, h]
  rfl

theorem line_group_of_error (h : (lineAll members m text s).result = .error error)
    (config : Config) (n : Nat) :
    (group config members).line n text s =
      ⟨.group config (lineAll members m text s).state, (lineAll members m text s).scope,
        .error (error.withNumber n)⟩ := by
  rw [Reader.line, lineAll_number n m members]
  simp only [Outcome.withNumber, h]
  rfl

theorem accepts_of_lenient (hl : lenient.strict = false) (recognized : Bool) (text : Text) :
    lenient.accepts recognized text = true := by
  simp [Config.accepts, hl]

theorem accepts_recognized (config : Config) (text : Text) : config.accepts true text = true := by
  simp [Config.accepts]

/-! ## Runs side by side -/

/-- A group that accepts a line goes on with the members and the scope that the line leaves,
whatever number the line has. -/
theorem readLines_group_cons {recognized : Bool} {other : Config}
    (h : (lineAll members m text s).result = .ok recognized)
    (accepted : other.accepts recognized text = true) (n : Nat) (rest : List Text) :
    (group other members).readLines n (text :: rest) s =
      (group other (lineAll members m text s).state).readLines (n + 1) rest
        (lineAll members m text s).scope := by
  simp only [readLines, line_group_of_ok h other n, accepted]

theorem readLines_group_cons_ok {rest : List Text}
    (h : (group config members).readLines m (text :: rest) s = ⟨reader, s', .ok ()⟩) :
    ∃ recognized, (lineAll members m text s).result = .ok recognized ∧
      (group config (lineAll members m text s).state).readLines (m + 1) rest
        (lineAll members m text s).scope = ⟨reader, s', .ok ()⟩ := by
  obtain ⟨accepted, later⟩ := readLines_cons_ok h
  cases here : (lineAll members m text s).result with
  | error failure =>
    rw [line_group_of_error here] at accepted
    cases accepted
  | ok recognized =>
    rw [line_group_of_ok here] at later
    exact ⟨recognized, rfl, later⟩

/-- What a group reads, every other group reads in the lines that are recognised. -/
theorem readLines_recognized (other : Config) (n : Nat)
    (h : (group config members).readLines m lines s = ⟨reader, s', .ok ()⟩) :
    ∃ members', reader = .group config members' ∧
      (group other members).readLines n (recognizedLines members m lines s) s =
        ⟨.group other members', s', .ok ()⟩ := by
  induction lines generalizing members m n s with
  | nil =>
    cases h
    exact ⟨members, rfl, rfl⟩
  | cons text rest ih =>
    obtain ⟨recognized, here, later⟩ := readLines_group_cons_ok h
    cases recognized with
    | true =>
      obtain ⟨members', same, run⟩ := ih (n + 1) later
      refine ⟨members', same, ?_⟩
      simp only [recognizedLines, here]
      rw [readLines_group_cons here (accepts_recognized other text), run]
    | false =>
      -- The line leaves the members and the scope, and the other group does not see it.
      obtain ⟨members', same, run⟩ := ih n later
      refine ⟨members', same, ?_⟩
      simp only [recognizedLines, here]
      rw [lineAll_declined members here] at run ⊢
      exact run

/-- Where a lenient group fails, every other group fails that is given the lines that were
recognised and the failing one. -/
theorem readLines_recognized_error (hl : lenient.strict = false) (other : Config) (n : Nat)
    (h : (group lenient members).readLines m lines s = ⟨reader, s', .error error⟩) :
    ∃ before text after mid t members', lines = before ++ text :: after ∧
      (group lenient members).readLines m before s = ⟨mid, t, .ok ()⟩ ∧
      (mid.line (m + before.length) text t).result = .error error ∧
      reader = .group lenient members' ∧
      (group other members).readLines n (recognizedLines members m lines s ++ [text]) s =
        ⟨.group other members', s',
          .error (error.withNumber (n + (recognizedLines members m lines s).length))⟩ := by
  induction lines generalizing members m n s with
  | nil => cases h
  | cons text rest ih =>
    have count (number : Nat) (earlier : List Text) :
        number + (text :: earlier).length = number + 1 + earlier.length := by
      simp only [List.length_cons]
      omega
    cases here : (lineAll members m text s).result with
    | error failure =>
      have refused := line_group_of_error here lenient m
      simp only [readLines, refused] at h
      cases h
      refine ⟨[], text, rest, _, s, _, rfl, rfl, by rw [List.length_nil, Nat.add_zero, refused],
        rfl, ?_⟩
      simp [recognizedLines, here, readLines, line_group_of_error here other n]
    | ok recognized =>
      have goes_on := readLines_group_cons here (accepts_of_lenient hl recognized text) m
      rw [goes_on] at h
      cases recognized with
      | true =>
        obtain ⟨before, last, after, mid, t, members', rfl, run, refused, same, others⟩ :=
          ih (n + 1) h
        refine ⟨text :: before, last, after, mid, t, members', rfl, ?_, ?_, same, ?_⟩
        · rw [goes_on, run]
        · rw [count, refused]
        · simp only [recognizedLines, here, List.cons_append]
          rw [readLines_group_cons here (accepts_recognized other text), others, count]
      | false =>
        obtain ⟨before, last, after, mid, t, members', rfl, run, refused, same, others⟩ :=
          ih n h
        refine ⟨text :: before, last, after, mid, t, members', rfl, ?_, ?_, same, ?_⟩
        · rw [goes_on, run]
        · rw [count, refused]
        · simp only [recognizedLines, here]
          rw [lineAll_declined members here] at others ⊢
          exact others

/-- What some group reads, a lenient group reads the same way. -/
theorem readLines_of_accepted (hl : lenient.strict = false)
    (h : (group config members).readLines m lines s = ⟨reader, s', .ok ()⟩) :
    ∃ members', reader = .group config members' ∧
      (group lenient members).readLines m lines s = ⟨.group lenient members', s', .ok ()⟩ := by
  induction lines generalizing members m s with
  | nil =>
    cases h
    exact ⟨members, rfl, rfl⟩
  | cons text rest ih =>
    obtain ⟨recognized, here, later⟩ := readLines_group_cons_ok h
    obtain ⟨members', same, run⟩ := ih later
    refine ⟨members', same, ?_⟩
    rw [readLines_group_cons here (accepts_of_lenient hl recognized text), run]

/-! ## The standard reader -/

/-- The members of the standard reader in the midst of a dump. -/
def standardMembers (opened : Option Text) (anonymous literals : Counters) : List Reader :=
  [.records, .enums opened anonymous, .constants, .literals literals]

variable {opened : Option Text} {anonymous literals : Counters}

/-- No member of the standard reader recognises a blank line. -/
theorem lineAll_of_blank (h : Text.isAllBlank text = true) (opened : Option Text)
    (anonymous literals : Counters) (number : Nat) (s : Scope) :
    lineAll (standardMembers opened anonymous literals) number text s =
      declined (standardMembers opened anonymous literals) s := by
  have records : Reader.records.line number text s = declined .records s := by
    rw [Reader.line, lineRecords, Line.record?_of_isAllBlank h]
  have enums : (Reader.enums opened anonymous).line number text s =
      declined (.enums opened anonymous) s := by
    rw [Reader.line]
    unfold lineEnums
    cases opened <;>
      simp [Line.enumOpening?_of_isAllBlank h, Line.closesEnum_of_isAllBlank h, h]
  have constants : Reader.constants.line number text s = declined .constants s := by
    rw [Reader.line, lineConstants, Line.constant?_of_isAllBlank h]
  have counted : (Reader.literals literals).line number text s =
      declined (.literals literals) s := by
    rw [Reader.line, lineLiterals, Line.literal?_of_isAllBlank h]
  simp only [standardMembers, lineAll, records, enums, constants, counted, declined]
  rfl

/-- A reader that accepts blank lines passes over them. -/
theorem readLines_blank (accepts : config.strict = false ∨ config.ignoreEmpty = true)
    (h : Text.isAllBlank text = true) (m : Nat) (rest : List Text) :
    (standardWith config opened anonymous literals).readLines m (text :: rest) s =
      (standardWith config opened anonymous literals).readLines (m + 1) rest s := by
  have nothing := lineAll_of_blank h opened anonymous literals m s
  have unrecognized : (lineAll (standardMembers opened anonymous literals) m text s).result =
      .ok false := by
    rw [nothing]
    rfl
  have accepted : config.accepts false text = true := by
    rcases accepts with lenient | empty
    · simp [Config.accepts, lenient]
    · simp [Config.accepts, empty, h]
  have passed := readLines_group_cons unrecognized accepted m rest
  rw [nothing] at passed
  exact passed

/-- A reader that accepts blank lines reads a dump like the dump without them. -/
theorem readLines_solid (accepts : config.strict = false ∨ config.ignoreEmpty = true) (m n : Nat) :
    ((standardWith config opened anonymous literals).readLines m lines s).withNumber 0 =
      ((standardWith config opened anonymous literals).readLines n
        (lines.filter fun text => !Text.isAllBlank text) s).withNumber 0 := by
  induction lines generalizing opened anonymous literals m n s with
  | nil => rfl
  | cons text rest ih =>
    cases blank : Text.isAllBlank text with
    | true =>
      rw [readLines_blank accepts blank, List.filter_cons_of_neg (by simp [blank])]
      exact ih (m + 1) n
    | false =>
      rw [List.filter_cons_of_pos (by simp [blank])]
      refine readLines_cons_congr fun state t read => ?_
      have ok : ((standardWith config opened anonymous literals).line n text s).result =
          .ok true := by rw [read]
      obtain ⟨opened', anonymous', _, _, _, -, -, -, -, same⟩ := line_standardWith_ok ok
      rw [read] at same
      rw [show state = _ from same]
      exact ih (m + 1) (n + 1)

/-- A lenient standard reader, and what it reads, against a standard reader with any other
configuration, a strict one for instance. The lines that some member recognises make the other
reader leave the same scope, the same open enumeration and the same counts. A line at which the
lenient reader fails makes the other one fail behind these lines in the same way, but for the line
number. Where blank lines are accepted, they make no difference. And what the other reader
accepts, the lenient one reads just so. -/
theorem readLines_lenient (hl : lenient.strict = false) (config : Config) (opened : Option Text)
    (anonymous literals : Counters) (number start : Nat) (lines : List Text) (s : Scope) :
    let recognized :=
      recognizedLines (standardMembers opened anonymous literals) number lines s
    recognized.Sublist lines ∧
    (∀ reader s', (standardWith lenient opened anonymous literals).readLines number lines s =
        ⟨reader, s', .ok ()⟩ →
      ∃ opened' anonymous' literals',
        reader = standardWith lenient opened' anonymous' literals' ∧
        (standardWith config opened anonymous literals).readLines start recognized s =
          ⟨standardWith config opened' anonymous' literals', s', .ok ()⟩) ∧
    (∀ reader s' error,
      (standardWith lenient opened anonymous literals).readLines number lines s =
        ⟨reader, s', .error error⟩ →
      ∃ before line after other, lines = before ++ line :: after ∧
        error.lineNumber? = some (number + before.length) ∧
        (standardWith config opened anonymous literals).readLines start (recognized ++ [line]) s =
          ⟨other, s', .error (error.withNumber (start + recognized.length))⟩) ∧
    (config.strict = false ∨ config.ignoreEmpty = true → ∀ lines',
      lines'.filter (fun line => !Text.isAllBlank line) =
        lines.filter (fun line => !Text.isAllBlank line) →
      ((standardWith config opened anonymous literals).readLines start lines' s).withNumber 0 =
        ((standardWith config opened anonymous literals).readLines number lines s).withNumber 0) ∧
    (∀ reader s', (standardWith config opened anonymous literals).readLines number lines s =
        ⟨reader, s', .ok ()⟩ →
      ∃ opened' anonymous' literals',
        reader = standardWith config opened' anonymous' literals' ∧
        (standardWith lenient opened anonymous literals).readLines number lines s =
          ⟨standardWith lenient opened' anonymous' literals', s', .ok ()⟩) := by
  intro recognized
  refine ⟨recognizedLines_sublist, ?_, ?_, ?_, ?_⟩
  · intro reader s' run
    obtain ⟨opened', anonymous', literals', rfl⟩ := readLines_standardWith run
    obtain ⟨members', same, others⟩ := readLines_recognized config start run
    cases same
    exact ⟨opened', anonymous', literals', rfl, others⟩
  · intro reader s' error run
    obtain ⟨before, line, after, mid, t, members', whole, first, refused, -, others⟩ :=
      readLines_recognized_error hl config start run
    obtain ⟨opened', anonymous', literals', rfl⟩ := readLines_standardWith first
    exact ⟨before, line, after, _, whole, (line_standardWith_error refused).1, others⟩
  · intro accepts lines' same
    rw [readLines_solid accepts start 0, readLines_solid accepts number 0, same]
  · intro reader s' run
    obtain ⟨opened', anonymous', literals', rfl⟩ := readLines_standardWith run
    obtain ⟨members', same, lenient_run⟩ := readLines_of_accepted hl run
    cases same
    exact ⟨opened', anonymous', literals', rfl, lenient_run⟩

/-- Lines of no kind, and blank ones, before, inside and after an enumeration. -/
def mixedLines : List Text :=
  ["???".toList, "enum E \x7b".toList, " ".toList, "A = 1".toList, "\x7d;".toList, "!".toList,
    "N = 2".toList]

theorem readLines_lenient_mixed :
    let kept := ["enum E \x7b".toList, "A = 1".toList, "\x7d;".toList, "N = 2".toList]
    let inside := "N::M = 3".toList
    let read := fun config lines => (standardWith config none .empty .empty).readLines 1 lines .empty
    recognizedLines (standardMembers none .empty .empty) 1 (mixedLines ++ [inside]) .empty = kept ∧
    (read .default kept).scope = (read .lenient mixedLines).scope ∧
    failedAt? (read .lenient (mixedLines ++ [inside])).result = some 8 ∧
    failedAt? (read .default (kept ++ [inside])).result = some 5 ∧
    (read .default (" ".toList :: kept)).scope = (read .default kept).scope ∧
    (read .lenient kept).scope = (read .default kept).scope := by
  intro kept inside read
  have lenient : Config.lenient.strict = false := rfl
  have recognized (more : List Text) (h : more = [] ∨ more = [inside]) :
      recognizedLines (standardMembers none .empty .empty) 1 (mixedLines ++ more) .empty =
        kept := by
    rcases h with rfl | rfl <;> decide +kernel
  have mixed : (read .lenient mixedLines).result = .ok () := ok_of_isOk (by decide +kernel)
  have failed : failedAt? (read .lenient (mixedLines ++ [inside])).result = some 8 := by
    decide +kernel
  have strict : (read .default kept).result = .ok () := ok_of_isOk (by decide +kernel)
  refine ⟨recognized _ (.inr rfl), ?_, failed, ?_, ?_, ?_⟩
  · obtain ⟨-, success, -⟩ :=
      readLines_lenient lenient .default none .empty .empty 1 1 mixedLines .empty
    obtain ⟨_, _, _, -, others⟩ := success _ _
      (show read .lenient mixedLines = ⟨_, _, .ok ()⟩ by rw [← mixed])
    have all := recognized [] (.inl rfl)
    rw [List.append_nil] at all
    rw [all] at others
    have same := congrArg DumpOutcome.scope others
    exact same
  · obtain ⟨-, -, failure, -⟩ :=
      readLines_lenient lenient .default none .empty .empty 1 1 (mixedLines ++ [inside]) .empty
    rcases run : read .lenient (mixedLines ++ [inside]) with ⟨reader, s', error | _⟩
    · rw [run] at failed
      obtain ⟨before, line, after, other, whole, at_line, others⟩ := failure reader s' error run
      have places : mixedLines.length = before.length := by
        have count : 1 + before.length = 8 := Option.some.inj (at_line.symm.trans failed)
        exact Nat.add_left_cancel (n := 1) count.symm
      obtain ⟨-, last⟩ := List.append_inj whole places
      obtain ⟨rfl, -⟩ := List.cons.inj last
      rw [recognized _ (.inr rfl)] at others
      have result : (read .default (kept ++ [inside])).result = .error (error.withNumber 5) :=
        congrArg DumpOutcome.result others
      rw [result]
      exact ReadError.lineNumber?_withNumber at_line 5
    · rw [run] at failed
      cases failed
  · obtain ⟨-, -, -, blank, -⟩ :=
      readLines_lenient lenient .default none .empty .empty 1 1 kept .empty
    have same := congrArg DumpOutcome.scope (blank (.inr rfl) (" ".toList :: kept) rfl)
    exact same
  · obtain ⟨-, -, -, -, accepted⟩ :=
      readLines_lenient lenient .default none .empty .empty 1 1 kept .empty
    obtain ⟨_, _, _, -, others⟩ := accepted _ _
      (show read .default kept = ⟨_, _, .ok ()⟩ by rw [← strict])
    have same := congrArg DumpOutcome.scope others
    exact same

end ConstantDump.Reader
