import ConstantDump.Proofs.Reader.Numbering
import ConstantDump.Proofs.Reader.Standard

/-!
What the standard reader stores, line by line, without looking at the scope: only the lines
decide about the names, and a tally of what has been read.

* `line_writes`: a line that is read goes on with the next tally, and leaves every value that
  nothing it stores covers;
* `readLines_writes`: the same for a run;
* `line_literal`: a literal is stored under its name and number, and nothing else with it.
-/

namespace ConstantDump.Reader

inductive Write
  | record (name : Text)
  | enumeration (name : Text)
  /-- An enumeration under its placeholder and number. -/
  | anonymous (name : Text) (index : Nat)
  | constant (name : Text)
  | literal (name : Text) (index : Nat)
  deriving DecidableEq, Repr

namespace Write

def storedName : Write → Text
  | .record name => name
  | .enumeration name => name
  | .anonymous name index => Name.numbered name index
  | .constant name => name
  | .literal name index => Name.numbered name index

def place (w : Write) : List Text := Name.path w.storedName

/-- Whether the write takes the place or ends what has been there. A record keeps what was
declared inside it. -/
def Covers (w : Write) (place : List Text) : Prop :=
  match w with
  | .record _ => w.place = place
  | _ => w.place <+: place

instance (w : Write) (place : List Text) : Decidable (w.Covers place) := by
  unfold Covers
  split <;> infer_instance

def numbered? : Write → Option (Text × Nat)
  | .anonymous name index => some (name, index)
  | .literal name index => some (name, index)
  | _ => none

end Write

/-- What the standard reader keeps from line to line, apart from the name of the enumeration
that is open. -/
structure Tally where
  isOpen : Bool
  anonymous : Counters
  literals : Counters

namespace Tally

def start : Tally := ⟨false, .empty, .empty⟩

def opening? (tally : Tally) (line : Text) : Option Write :=
  if tally.isOpen then none
  else (Line.enumOpening? line).map fun name =>
    if Line.isAnonymous (Name.splitLast name).2 then .anonymous name (tally.anonymous.count name)
    else .enumeration name

def writes (tally : Tally) (line : Text) : List Write :=
  ((Line.record? line).map fun found => Write.record found.1).toList ++
    ((tally.opening? line).toList ++
      (((Line.constant? line).map fun found => Write.constant found.1).toList ++
        ((Line.literal? line).map fun found =>
          Write.literal found.1 (tally.literals.count found.1)).toList))

def next (tally : Tally) (line : Text) : Tally where
  isOpen := (Line.enumOpening? line).isSome || tally.isOpen && !Line.closesEnum line
  anonymous :=
    match tally.isOpen, Line.enumOpening? line with
    | false, some name => (storedUnder tally.anonymous name).2
    | _, _ => tally.anonymous
  literals := literalCounters tally.literals line

def writesAll (tally : Tally) : List Text → List Write
  | [] => []
  | line :: lines => tally.writes line ++ (tally.next line).writesAll lines

def after (tally : Tally) (lines : List Text) : Tally := lines.foldl next tally

theorem after_concat (tally : Tally) (lines : List Text) (line : Text) :
    tally.after (lines ++ [line]) = (tally.after lines).next line := by
  simp [after, List.foldl_append]

theorem writesAll_append (tally : Tally) (lines others : List Text) :
    tally.writesAll (lines ++ others) =
      tally.writesAll lines ++ (tally.after lines).writesAll others := by
  induction lines generalizing tally with
  | nil => rfl
  | cons line lines ih =>
    rw [List.cons_append, writesAll, ih, writesAll, List.append_assoc]
    rfl

theorem literals_after (tally : Tally) (lines : List Text) :
    (tally.after lines).literals = tally.literals.after (literalNames lines) := by
  induction lines generalizing tally with
  | nil => rfl
  | cons line lines ih =>
    have step : tally.after (line :: lines) = (tally.next line).after lines := rfl
    rw [step, ih]
    cases hl : Line.literal? line <;> simp [next, literalCounters, literalNames, hl, Counters.after]

/-- From the start, the count is that of the literals with the same enclosing scope. -/
theorem count_after_start (lines : List Text) (name : Text) :
    (start.after lines).literals.count name =
      (literalNames lines).countP fun other =>
        Counters.enclosing other = Counters.enclosing name := by
  have total := Counters.count_after .empty (literalNames lines) name
  rw [Counters.count_empty, Nat.zero_add] at total
  rw [literals_after]
  exact total

theorem literal_mem_writes {tally : Tally} {line name : Text} {index : Nat}
    (h : .literal name index ∈ tally.writes line) :
    (∃ raw, Line.literal? line = some (name, raw)) ∧ index = tally.literals.count name := by
  have opened : .literal name index ∉ tally.opening? line := by
    intro opening
    unfold opening? at opening
    split at opening
    · cases opening
    · obtain ⟨other, -, same⟩ := Option.map_eq_some_iff.1 opening
      split at same <;> cases same
  simp only [writes, List.mem_append, Option.mem_toList, Option.map_eq_some_iff] at h
  rcases h with ⟨found, -, same⟩ | opening | ⟨found, -, same⟩ | ⟨found, literal, same⟩
  · cases same
  · exact absurd opening opened
  · cases same
  · cases same
    exact ⟨⟨found.2, literal⟩, rfl⟩

/-- No literal has a number below the count. -/
theorem count_le_of_mem_writesAll {tally : Tally} {lines : List Text} {name : Text} {index : Nat}
    (h : .literal name index ∈ tally.writesAll lines) : tally.literals.count name ≤ index := by
  induction lines generalizing tally with
  | nil => cases h
  | cons line lines ih =>
    rw [writesAll, List.mem_append] at h
    rcases h with here | later
    · obtain ⟨-, rfl⟩ := literal_mem_writes here
      exact Nat.le_refl _
    · have grown := ih later
      have counted : (tally.next line).literals = literalCounters tally.literals line := rfl
      rw [counted, literalCounters] at grown
      split at grown
      · exact grown
      · rw [Counters.count_number] at grown
        omega

end Tally

variable {config : Config} {opened : Option Text} {anonymous literals : Counters}
variable {number : Nat} {line : Text} {lines : List Text} {s s' : Scope} {reader : Reader}

def tallyOf (opened : Option Text) (anonymous literals : Counters) : Tally :=
  ⟨opened.isSome, anonymous, literals⟩

/-- The enumeration reader opens what the tally says, and adds enumerators, which are no
values. -/
theorem EnumsStep.tally {opened' : Option Text} {anonymous' : Counters} (literals : Counters)
    (place : List Text) (h : EnumsStep line opened anonymous s opened' anonymous' s') :
    (tallyOf opened anonymous literals).next line =
        tallyOf opened' anonymous' (literalCounters literals line) ∧
      ((∀ w ∈ (tallyOf opened anonymous literals).opening? line, ¬ w.Covers place) →
        Scope.valueAt? place s' = Scope.valueAt? place s) := by
  cases h with
  | @opens name anonymous s s' opening step =>
    refine ⟨by simp [tallyOf, Tally.next, opening], ?_⟩
    intro spared
    have assigned := Scope.assigned_path step
    refine assigned.valueAt?_elsewhere fun around => ?_
    by_cases nameless : Line.isAnonymous (Name.splitLast name).2 = true
    · refine spared (.anonymous name (anonymous.count name)) ?_ ?_
      · simp [tallyOf, Tally.opening?, opening, nameless]
      · rw [storedUnder, if_pos nameless] at around
        exact around
    · refine spared (.enumeration name) ?_ ?_
      · simp [tallyOf, Tally.opening?, opening, nameless]
      · rw [storedUnder, if_neg nameless] at around
        exact around
  | nested opening => exact ⟨by simp [tallyOf, Tally.next, opening], fun _ => rfl⟩
  | outside opening => exact ⟨by simp [tallyOf, Tally.next, opening], fun _ => rfl⟩
  | closes closing =>
    have opening : Line.enumOpening? line = none := by
      apply Option.eq_none_iff_forall_not_mem.2
      intro name opening
      rw [Line.closesEnum_of_enumOpening? opening] at closing
      cases closing
    exact ⟨by simp [tallyOf, Tally.next, opening, closing], fun _ => rfl⟩
  | blank opening closing blank =>
    exact ⟨by simp [tallyOf, Tally.next, opening, closing], fun _ => rfl⟩
  | adds opening closing constant integral step =>
    exact ⟨by simp [tallyOf, Tally.next, opening, closing],
      fun _ => Scope.valueAt?_addEnumerator step place⟩

/-- What is stored elsewhere leaves a value. -/
theorem Stored.valueAt?_elsewhere {item : Option (Text × Entry)} {place : List Text}
    (h : Stored item s s')
    (spared : ∀ name entry, item = some (name, entry) → ¬ Name.path name <+: place) :
    Scope.valueAt? place s' = Scope.valueAt? place s := by
  cases h with
  | skipped => rfl
  | assigned step => exact (Scope.assigned_path step).valueAt?_elsewhere (spared _ _ rfl)

/-- A record keeps what was declared inside it, so it ends no value but one at its place. -/
theorem Stored.valueAt?_of_record {place : List Text} (h : Stored (recordItem? line s) s s')
    (spared : ∀ name fields, Line.record? line = some (name, fields) → Name.path name ≠ place) :
    Scope.valueAt? place s' = Scope.valueAt? place s := by
  cases hr : Line.record? line with
  | none =>
    rw [recordItem?_eq_none hr] at h
    rw [h.eq_of_none]
  | some found =>
    have item : recordItem? line s = some (found.1, .record (.ofFieldList found.1 found.2)
        ((s.members? found.1).getD .empty)) := by
      rw [recordItem?, hr]
      rfl
    rw [item] at h
    cases h with
    | assigned step => exact (Scope.assigned_path step).valueAt?_of_record rfl (spared _ _ hr)

/-- A line that is read goes on with the next tally, and leaves the values that it spares. -/
theorem line_writes (place : List Text) {accepted : Bool}
    (h : ((standardWith config opened anonymous literals).line number line s).result =
      .ok accepted) :
    ∃ opened' anonymous' literals',
      ((standardWith config opened anonymous literals).line number line s).state =
          standardWith config opened' anonymous' literals' ∧
        (tallyOf opened anonymous literals).next line = tallyOf opened' anonymous' literals' ∧
        ((∀ w ∈ (tallyOf opened anonymous literals).writes line, ¬ w.Covers place) →
          Scope.valueAt? place
              ((standardWith config opened anonymous literals).line number line s).scope =
            Scope.valueAt? place s) := by
  obtain ⟨opened', anonymous', s₁, s₂, s₃, records, enums, constants, literal, state⟩ :=
    line_standardWith_ok h
  obtain ⟨next, opening⟩ := enums.tally literals place
  refine ⟨opened', anonymous', _, state, next, ?_⟩
  intro spared
  simp only [Tally.writes, List.mem_append, or_imp, forall_and, Option.mem_toList,
    Option.map_eq_some_iff] at spared
  obtain ⟨no_record, no_opening, no_constant, no_literal⟩ := spared
  -- Each of the four readers leaves the value.
  have after_record : Scope.valueAt? place s₁ = Scope.valueAt? place s :=
    records.valueAt?_of_record fun name fields hr =>
      no_record (.record name) ⟨(name, fields), hr, rfl⟩
  have after_constant : Scope.valueAt? place s₃ = Scope.valueAt? place s₂ := by
    refine constants.valueAt?_elsewhere fun name entry item => ?_
    obtain ⟨found, hc, same⟩ := Option.map_eq_some_iff.1 item
    cases same
    exact no_constant (.constant found.1) ⟨found, hc, rfl⟩
  have after_literal : Scope.valueAt? place
      ((standardWith config opened anonymous literals).line number line s).scope =
        Scope.valueAt? place s₃ := by
    refine literal.valueAt?_elsewhere fun name entry item => ?_
    obtain ⟨found, hl, same⟩ := Option.map_eq_some_iff.1 item
    cases same
    exact no_literal (.literal found.1 (literals.count found.1)) ⟨found, hl, rfl⟩
  rw [after_literal, after_constant, opening no_opening, after_record]

/-- A run goes on with the tally after its lines, and leaves the values that they spare. -/
theorem readLines_writes (place : List Text)
    (h : (standardWith config opened anonymous literals).readLines number lines s =
      ⟨reader, s', .ok ()⟩) :
    ∃ opened' anonymous' literals', reader = standardWith config opened' anonymous' literals' ∧
      (tallyOf opened anonymous literals).after lines = tallyOf opened' anonymous' literals' ∧
      ((∀ w ∈ (tallyOf opened anonymous literals).writesAll lines, ¬ w.Covers place) →
        Scope.valueAt? place s' = Scope.valueAt? place s) := by
  refine readLines_ok [] (P := fun done reader t => ∃ opened' anonymous' literals',
    reader = standardWith config opened' anonymous' literals' ∧
      (tallyOf opened anonymous literals).after done = tallyOf opened' anonymous' literals' ∧
      ((∀ w ∈ (tallyOf opened anonymous literals).writesAll done, ¬ w.Covers place) →
        Scope.valueAt? place t = Scope.valueAt? place s)) ?_
    ⟨opened, anonymous, literals, rfl, rfl, fun _ => rfl⟩ h
  rintro done reader number line t ⟨opened₁, anonymous₁, literals₁, rfl, tally, left⟩ accepted
  obtain ⟨opened₂, anonymous₂, literals₂, state, next, step⟩ := line_writes place accepted
  refine ⟨opened₂, anonymous₂, literals₂, state, ?_, ?_⟩
  · rw [Tally.after_concat, tally, next]
  · rw [Tally.writesAll_append, tally]
    intro spared
    have line_spared : ∀ w ∈ (tallyOf opened₁ anonymous₁ literals₁).writes line,
        ¬ w.Covers place := fun w hw =>
      spared w (List.mem_append_right _ (List.mem_append_left _ hw))
    rw [step line_spared]
    exact left fun w hw => spared w (List.mem_append_left _ hw)

/-- A literal is all that its line stores. -/
theorem line_literal {name raw : Text} {accepted : Bool}
    (literal : Line.literal? line = some (name, raw))
    (h : ((standardWith config opened anonymous literals).line number line s).result =
      .ok accepted) :
    s.assign (Name.numbered name (literals.count name)) (.value (Literal.decodeIn s raw)) =
      (((standardWith config opened anonymous literals).line number line s).scope, .ok ()) := by
  obtain ⟨opened', anonymous', s₁, s₂, s₃, records, enums, constants, stored, state⟩ :=
    line_standardWith_ok h
  have same₁ : s₁ = s := by
    rw [recordItem?_eq_none (Line.record?_of_literal? literal)] at records
    exact records.eq_of_none
  have same₂ : s₂ = s₁ := by
    cases enums with
    | opens opening =>
      rw [Line.enumOpening?_of_literal? literal] at opening
      cases opening
    | adds _ _ constant =>
      rw [Line.constant?_of_literal? literal] at constant
      cases constant
    | _ => rfl
  have same₃ : s₃ = s₂ := by
    rw [constantItem?_eq_none (Line.constant?_of_literal? literal)] at constants
    exact constants.eq_of_none
  have item : literalItem? literals line s₃ =
      some ((literals.number name).1, .value (Literal.decodeIn s₃ raw)) := by
    rw [literalItem?, literal]
    rfl
  rw [item, same₃, same₂, same₁] at stored
  cases stored with
  | assigned step => exact step

end ConstantDump.Reader
