import ConstantDump.Proofs.Scope.Assign
import ConstantDump.Reader.Line

/-!
What a reader does with one line. The readers of records, constants and literals store the
item of a line, if it has one; the reader of enumerations takes one of a few steps.

* `storedItem_ok`, `storedItem_error`: an item is stored, or nothing changes;
* `lineEnums_ok`, `lineEnums_error`: the same for enumerations;
* `lineAll_cons_ok`, `lineAll_cons_error`: a group goes from member to member;
* `line_declined`: a line that is not recognised changes neither the reader nor the scope.
-/

namespace ConstantDump.Reader

/-! ## What a line stores -/

/-- The record of a line, with what is declared inside its name already. -/
def recordItem? (line : Text) (s : Scope) : Option (Text × Entry) :=
  (Line.record? line).map fun (name, fields) =>
    (name, .record (.ofFieldList name fields) ((s.members? name).getD .empty))

def constantItem? (line : Text) (s : Scope) : Option (Text × Entry) :=
  (Line.constant? line).map fun (name, raw) => (name, .value (Literal.decodeIn s raw))

def literalItem? (counters : Counters) (line : Text) (s : Scope) : Option (Text × Entry) :=
  (Line.literal? line).map fun (name, raw) =>
    ((counters.number name).1, .value (Literal.decodeIn s raw))

def literalCounters (counters : Counters) (line : Text) : Counters :=
  match Line.literal? line with
  | none => counters
  | some (name, _) => (counters.number name).2

theorem recordItem?_eq_none {line : Text} {s : Scope} (h : Line.record? line = none) :
    recordItem? line s = none := by
  rw [recordItem?, h]
  rfl

theorem constantItem?_eq_none {line : Text} {s : Scope} (h : Line.constant? line = none) :
    constantItem? line s = none := by
  rw [constantItem?, h]
  rfl

theorem literalItem?_eq_none {counters : Counters} {line : Text} {s : Scope}
    (h : Line.literal? line = none) : literalItem? counters line s = none := by
  rw [literalItem?, h]
  rfl

def storedItem (state : Reader) (s : Scope) (number : Nat) : Option (Text × Entry) → Outcome Reader
  | none => declined state s
  | some (name, entry) => stored state s number name entry

theorem lineRecords_eq (number : Nat) (line : Text) (s : Scope) :
    lineRecords number line s = storedItem .records s number (recordItem? line s) := by
  unfold lineRecords recordItem?
  cases Line.record? line <;> rfl

theorem lineConstants_eq (number : Nat) (line : Text) (s : Scope) :
    lineConstants number line s = storedItem .constants s number (constantItem? line s) := by
  unfold lineConstants constantItem?
  cases Line.constant? line <;> rfl

theorem lineLiterals_eq (counters : Counters) (number : Nat) (line : Text) (s : Scope) :
    lineLiterals counters number line s =
      storedItem (.literals (literalCounters counters line)) s number
        (literalItem? counters line s) := by
  unfold lineLiterals literalItem? literalCounters
  cases Line.literal? line <;> rfl

/-- The scope afterwards has the item, if there is one. -/
inductive Stored : Option (Text × Entry) → Scope → Scope → Prop
  | skipped (s : Scope) : Stored none s s
  | assigned {name : Text} {entry : Entry} {s s' : Scope}
      (step : s.assign name entry = (s', .ok ())) : Stored (some (name, entry)) s s'

inductive Unstored : Option (Text × Entry) → Scope → Prop
  | refused {name : Text} {entry : Entry} {s : Scope} {failure : ScopeError}
      (step : s.assign name entry = (s, .error failure)) : Unstored (some (name, entry)) s

theorem Stored.eq_of_none {s s' : Scope} (h : Stored none s s') : s' = s := by
  cases h
  rfl

theorem storedItem_state (state : Reader) (s : Scope) (number : Nat)
    (item : Option (Text × Entry)) : (storedItem state s number item).state = state := by
  cases item with
  | none => rfl
  | some item =>
    simp only [storedItem, stored]
    split <;> rfl

theorem storedItem_ok {state : Reader} {s : Scope} {number : Nat}
    {item : Option (Text × Entry)} {recognized : Bool}
    (h : (storedItem state s number item).result = .ok recognized) :
    Stored item s (storedItem state s number item).scope := by
  cases item with
  | none => exact .skipped s
  | some item =>
    refine .assigned ?_
    simp only [storedItem, stored] at h ⊢
    split at h
    · assumption
    · cases h

/-- A failure to store changes nothing. -/
theorem storedItem_error {state : Reader} {s : Scope} {number : Nat}
    {item : Option (Text × Entry)} {error : ReadError}
    (h : (storedItem state s number item).result = .error error) :
    Unstored item s ∧ (storedItem state s number item).scope = s ∧
      error.lineNumber? = some number := by
  cases item with
  | none => cases h
  | some item =>
    simp only [storedItem, stored] at h ⊢
    split at h
    · cases h
    · rename_i t failure ha
      obtain rfl : t = s := Scope.assignAt_error ha
      cases h
      exact ⟨.refused ha, rfl, rfl⟩

theorem storedItem_of_ok {state : Reader} {s s' : Scope} {number : Nat} {name : Text}
    {entry : Entry} (h : s.assign name entry = (s', .ok ())) :
    storedItem state s number (some (name, entry)) = ⟨state, s', .ok true⟩ := by
  simp only [storedItem, stored, h]

theorem storedItem_of_unstored {item : Option (Text × Entry)} {s : Scope} (h : Unstored item s)
    (state : Reader) (number : Nat) :
    ∃ failure, storedItem state s number item = ⟨state, s, .error (.scope failure number)⟩ := by
  cases h with
  | @refused name entry s failure step =>
    exact ⟨failure, by simp only [storedItem, stored, step]⟩

/-! ## Enumerations -/

/-- The name under which an enumeration is stored when it is opened, and the counts after
that. -/
def storedUnder (anonymous : Counters) (name : Text) : Text × Counters :=
  if Line.isAnonymous (Name.splitLast name).2 then anonymous.number name else (name, anonymous)

/-- The steps of the enumeration reader for a line that it does not refuse. -/
inductive EnumsStep (line : Text) :
    Option Text → Counters → Scope → Option Text → Counters → Scope → Prop
  /-- The line opens an enumeration. -/
  | opens {name : Text} {anonymous : Counters} {s s' : Scope}
      (opening : Line.enumOpening? line = some name)
      (step : s.assign (storedUnder anonymous name).1
        (.enumeration (.named (Name.splitLast name).2)) = (s', .ok ())) :
      EnumsStep line none anonymous s (some (storedUnder anonymous name).1)
        (storedUnder anonymous name).2 s'
  /-- The line would open an enumeration, but one is open. -/
  | nested {opened name : Text} {anonymous : Counters} {s : Scope}
      (opening : Line.enumOpening? line = some name) :
      EnumsStep line (some opened) anonymous s (some opened) anonymous s
  | outside {anonymous : Counters} {s : Scope} (opening : Line.enumOpening? line = none) :
      EnumsStep line none anonymous s none anonymous s
  | closes {opened : Text} {anonymous : Counters} {s : Scope}
      (closing : Line.closesEnum line) :
      EnumsStep line (some opened) anonymous s none anonymous s
  | blank {opened : Text} {anonymous : Counters} {s : Scope}
      (opening : Line.enumOpening? line = none) (closing : Line.closesEnum line = false)
      (blank : Text.isAllBlank line) :
      EnumsStep line (some opened) anonymous s (some opened) anonymous s
  /-- The line is an enumerator of the open enumeration. -/
  | adds {opened name raw : Text} {value : Int} {anonymous : Counters} {s s' : Scope}
      (opening : Line.enumOpening? line = none) (closing : Line.closesEnum line = false)
      (constant : Line.constant? line = some (name, raw))
      (integral : (Literal.decodeIn s raw).integral? = some value)
      (step : s.addEnumerator? opened (Name.splitLast name).2 value = some (.ok s')) :
      EnumsStep line (some opened) anonymous s (some opened) anonymous s'

theorem addEnumerator_ok {opened line : Text} {number : Nat} {s s' : Scope}
    (h : addEnumerator opened number line s = .ok s') :
    ∃ name raw value, Line.constant? line = some (name, raw) ∧
      (Literal.decodeIn s raw).integral? = some value ∧
      s.addEnumerator? opened (Name.splitLast name).2 value = some (.ok s') := by
  unfold addEnumerator at h
  split at h
  · cases h
  · rename_i name raw hc
    split at h
    · cases h
    · rename_i value hv
      split at h
      · cases h
      · cases h
      · rename_i t ht
        cases h
        exact ⟨name, raw, value, hc, hv, ht⟩

theorem addEnumerator_error {opened line : Text} {number : Nat} {s : Scope}
    {error : ReadError} (h : addEnumerator opened number line s = .error error) :
    error.lineNumber? = some number := by
  unfold addEnumerator at h
  split at h
  · cases h
    rfl
  · split at h
    · cases h
      rfl
    · split at h
      · cases h
        rfl
      · cases h
        rfl
      · cases h

theorem openEnum_ok {anonymous : Counters} {number : Nat} {name : Text} {s : Scope}
    {recognized : Bool} (h : (openEnum anonymous number name s).result = .ok recognized) :
    s.assign (storedUnder anonymous name).1 (.enumeration (.named (Name.splitLast name).2)) =
        ((openEnum anonymous number name s).scope, .ok ()) ∧
      (openEnum anonymous number name s).state =
        .enums (some (storedUnder anonymous name).1) (storedUnder anonymous name).2 := by
  simp only [openEnum] at h ⊢
  split at h
  · rename_i t ht
    exact ⟨ht, rfl⟩
  · cases h

theorem openEnum_error {anonymous : Counters} {number : Nat} {name : Text} {s : Scope}
    {error : ReadError} (h : (openEnum anonymous number name s).result = .error error) :
    (openEnum anonymous number name s).scope = s ∧ error.lineNumber? = some number := by
  simp only [openEnum] at h ⊢
  split at h
  · cases h
  · rename_i t failure ht
    cases h
    exact ⟨Scope.assignAt_error ht, rfl⟩

theorem lineEnums_ok {opened : Option Text} {anonymous : Counters} {number : Nat}
    {line : Text} {s : Scope} {recognized : Bool}
    (h : (lineEnums opened anonymous number line s).result = .ok recognized) :
    ∃ opened' anonymous',
      (lineEnums opened anonymous number line s).state = .enums opened' anonymous' ∧
      EnumsStep line opened anonymous s opened' anonymous'
        (lineEnums opened anonymous number line s).scope := by
  unfold lineEnums at h ⊢
  split at h
  · rename_i name inner ho
    exact ⟨_, _, rfl, .nested ho⟩
  · rename_i name ho
    obtain ⟨step, state⟩ := openEnum_ok h
    exact ⟨_, _, state, .opens ho step⟩
  · rename_i ho
    exact ⟨_, _, rfl, .outside ho⟩
  · rename_i inner ho
    split at h
    · rename_i closing
      simp only [closing, ↓reduceIte]
      exact ⟨_, _, rfl, .closes closing⟩
    · rename_i closing
      simp only [Bool.not_eq_true] at closing
      split at h
      · rename_i blank
        simp only [closing, blank, Bool.false_eq_true, ↓reduceIte]
        exact ⟨_, _, rfl, .blank ho closing blank⟩
      · rename_i blank
        split at h
        · rename_i t ht
          simp only [closing, blank, Bool.false_eq_true, ↓reduceIte]
          obtain ⟨name, raw, value, hc, hv, step⟩ := addEnumerator_ok ht
          exact ⟨_, _, rfl, .adds ho closing hc hv step⟩
        · cases h

/-- The enumeration reader refuses no line after it has changed the scope. -/
theorem lineEnums_error {opened : Option Text} {anonymous : Counters} {number : Nat}
    {line : Text} {s : Scope} {error : ReadError}
    (h : (lineEnums opened anonymous number line s).result = .error error) :
    (lineEnums opened anonymous number line s).scope = s ∧
      error.lineNumber? = some number := by
  unfold lineEnums at h ⊢
  split at h
  · cases h
  · exact openEnum_error h
  · cases h
  · split at h
    · cases h
    · rename_i closing
      split at h
      · cases h
      · rename_i blank
        split at h
        · cases h
        · rename_i failure ha
          cases h
          refine ⟨?_, addEnumerator_error ha⟩
          simp only [closing, blank, Bool.false_eq_true, ↓reduceIte]

/-! ## Groups -/

theorem lineAll_cons_of_ok {reader : Reader} {rest : List Reader} {number : Nat} {line : Text}
    {s : Scope} {recognized : Bool}
    (h : (reader.line number line s).result = .ok recognized) :
    lineAll (reader :: rest) number line s =
      ⟨(reader.line number line s).state ::
          (lineAll rest number line (reader.line number line s).scope).state,
        (lineAll rest number line (reader.line number line s).scope).scope,
        (lineAll rest number line (reader.line number line s).scope).result.map
          (recognized || ·)⟩ := by
  rw [lineAll]
  simp only [h]

theorem lineAll_cons_of_error {reader : Reader} {rest : List Reader} {number : Nat}
    {line : Text} {s : Scope} {error : ReadError}
    (h : (reader.line number line s).result = .error error) :
    lineAll (reader :: rest) number line s =
      ⟨(reader.line number line s).state :: rest, (reader.line number line s).scope,
        .error error⟩ := by
  rw [lineAll]
  simp only [h]

theorem scope_lineAll_of_ok {reader state : Reader} {number : Nat} {line : Text} {s t : Scope}
    {recognized : Bool} (h : reader.line number line s = ⟨state, t, .ok recognized⟩)
    (rest : List Reader) :
    (lineAll (reader :: rest) number line s).scope = (lineAll rest number line t).scope := by
  have ok : (reader.line number line s).result = .ok recognized := by rw [h]
  rw [lineAll_cons_of_ok ok, h]

theorem scope_lineAll_of_error {reader state : Reader} {number : Nat} {line : Text}
    {s t : Scope} {error : ReadError} (h : reader.line number line s = ⟨state, t, .error error⟩)
    (rest : List Reader) : (lineAll (reader :: rest) number line s).scope = t := by
  have failed : (reader.line number line s).result = .error error := by rw [h]
  rw [lineAll_cons_of_error failed, h]

/-- A group reads a line when its first member and the others do, one after the other. -/
theorem lineAll_cons_ok {reader : Reader} {rest : List Reader} {number : Nat} {line : Text}
    {s : Scope} {recognized : Bool}
    (h : (lineAll (reader :: rest) number line s).result = .ok recognized) :
    ∃ first others, (reader.line number line s).result = .ok first ∧
      (lineAll rest number line (reader.line number line s).scope).result = .ok others ∧
      recognized = (first || others) := by
  cases hr : (reader.line number line s).result with
  | error error =>
    rw [lineAll_cons_of_error hr] at h
    cases h
  | ok first =>
    rw [lineAll_cons_of_ok hr] at h
    cases ho : (lineAll rest number line (reader.line number line s).scope).result with
    | error error =>
      simp only [ho] at h
      cases h
    | ok others =>
      simp only [ho] at h
      cases h
      exact ⟨first, others, rfl, rfl, rfl⟩

/-- A group refuses a line when its first member does, or when the others do after it. -/
theorem lineAll_cons_error {reader : Reader} {rest : List Reader} {number : Nat} {line : Text}
    {s : Scope} {error : ReadError}
    (h : (lineAll (reader :: rest) number line s).result = .error error) :
    (reader.line number line s).result = .error error ∨
      ∃ first, (reader.line number line s).result = .ok first ∧
        (lineAll rest number line (reader.line number line s).scope).result = .error error := by
  cases hr : (reader.line number line s).result with
  | error failure =>
    rw [lineAll_cons_of_error hr] at h
    exact .inl h
  | ok first =>
    rw [lineAll_cons_of_ok hr] at h
    cases ho : (lineAll rest number line (reader.line number line s).scope).result with
    | ok others =>
      simp only [ho] at h
      cases h
    | error failure =>
      simp only [ho] at h
      cases h
      exact .inr ⟨first, rfl, rfl⟩

/-! ## Lines that are not recognised -/

theorem lineEnums_declined {opened : Option Text} {anonymous : Counters} {number : Nat}
    {line : Text} {s : Scope}
    (h : (lineEnums opened anonymous number line s).result = .ok false) :
    lineEnums opened anonymous number line s = declined (.enums opened anonymous) s := by
  unfold lineEnums at h ⊢
  split at h
  · rfl
  · simp only [openEnum] at h
    split at h <;> cases h
  · rfl
  · split at h
    · cases h
    · rename_i closing
      split at h
      · rename_i blank
        simp only [closing, blank, Bool.false_eq_true, ↓reduceIte]
      · split at h <;> cases h

/-- Storing an item recognises its line. -/
theorem eq_none_of_storedItem {state : Reader} {s : Scope} {number : Nat}
    {item : Option (Text × Entry)} (h : (storedItem state s number item).result = .ok false) :
    item = none := by
  cases item with
  | none => rfl
  | some item =>
    simp only [storedItem, stored] at h
    split at h <;> cases h

theorem lineLiterals_declined {counters : Counters} {number : Nat} {line : Text} {s : Scope}
    (h : (lineLiterals counters number line s).result = .ok false) :
    lineLiterals counters number line s = declined (.literals counters) s := by
  have no_item := h
  rw [lineLiterals_eq] at no_item
  have no_literal : Line.literal? line = none := by
    simpa [literalItem?] using eq_none_of_storedItem no_item
  rw [lineLiterals, no_literal]

mutual

/-- A line that a reader does not recognise changes neither the reader nor the scope. -/
theorem line_declined {number : Nat} {line : Text} {s : Scope} :
    (reader : Reader) → (reader.line number line s).result = .ok false →
      reader.line number line s = declined reader s
  | .constants, h => by
    simp only [Reader.line, lineConstants_eq] at h ⊢
    rw [eq_none_of_storedItem h, storedItem]
  | .enums opened anonymous, h => by
    simp only [Reader.line] at h ⊢
    exact lineEnums_declined h
  | .records, h => by
    simp only [Reader.line, lineRecords_eq] at h ⊢
    rw [eq_none_of_storedItem h, storedItem]
  | .literals counters, h => by
    simp only [Reader.line] at h ⊢
    exact lineLiterals_declined h
  | .group config members, h => by
    simp only [Reader.line] at h ⊢
    cases hr : (lineAll members number line s).result with
    | error error =>
      rw [hr] at h
      cases h
    | ok recognized =>
      rw [hr] at h
      have accepts : config.accepts recognized line = false := Except.ok.inj h
      obtain rfl : recognized = false := by
        simp only [Config.accepts, Bool.or_eq_false_iff] at accepts
        exact accepts.1.1
      rw [lineAll_declined members hr]
      simp only [declined, Except.map, accepts]

/-- A line that no member of a group recognises changes none of them, and not the scope. -/
theorem lineAll_declined {number : Nat} {line : Text} {s : Scope} :
    (readers : List Reader) → (lineAll readers number line s).result = .ok false →
      lineAll readers number line s = declined readers s
  | [], _ => by rw [lineAll]
  | reader :: rest, h => by
    obtain ⟨first, others, hf, ho, hr⟩ := lineAll_cons_ok h
    obtain ⟨rfl, rfl⟩ : first = false ∧ others = false := by simpa using hr
    have here := line_declined reader hf
    rw [here] at ho
    rw [lineAll_cons_of_ok hf, here]
    simp only [declined] at ho ⊢
    rw [lineAll_declined rest ho]
    rfl

end

end ConstantDump.Reader
