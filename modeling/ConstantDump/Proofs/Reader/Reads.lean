import ConstantDump.Proofs.Reader.Line
import ConstantDump.Proofs.Scope.Contents
import ConstantDump.Proofs.Scope.Enumeration
import ConstantDump.Reader.Dump

/-!
What a reader of any kind, in any state, can do to a scope. With one line it stores what the line
declares or adds an enumerator; a group may do so several times, also before it fails.

* `reads_line`: there is nothing else that a reader does with a line;
* `readInto_induction`: so what these steps keep is kept while a dump is read;
* `wellNamed_readInto`: no scope comes to have a name twice.
-/

namespace ConstantDump.Reader

open Scope

/-- What a line declares, with the scope that it is read into, under the name it is stored by. -/
inductive Declares (line : Text) (s : Scope) : Text → Entry → Prop
  | constant {name raw : Text} (h : Line.constant? line = some (name, raw)) :
      Declares line s name (.value (Literal.decodeIn s raw))
  | literal {name raw : Text} (h : Line.literal? line = some (name, raw)) (counters : Counters) :
      Declares line s (counters.number name).1 (.value (Literal.decodeIn s raw))
  | record {name fields : Text} (h : Line.record? line = some (name, fields)) :
      Declares line s name (.record (.ofFieldList name fields) ((s.members? name).getD .empty))
  | enumeration {name : Text} (h : Line.enumOpening? line = some name) (anonymous : Counters) :
      Declares line s (storedUnder anonymous name).1 (.enumeration (.named (Name.splitLast name).2))

/-- The scopes that readers of a line can leave. -/
inductive Reads (line : Text) : Scope → Scope → Prop
  | nothing (s : Scope) : Reads line s s
  | stores {s s' : Scope} {name : Text} {entry : Entry} (declared : Declares line s name entry)
      (step : s.assign name entry = (s', .ok ())) : Reads line s s'
  | adds {s s' : Scope} {opened enumerator : Text} {value : Int}
      (step : s.addEnumerator? opened enumerator value = some (.ok s')) : Reads line s s'
  | several {s t u : Scope} (first : Reads line s t) (later : Reads line t u) : Reads line s u

variable {line : Text}

theorem reads_storedItem {state : Reader} {number : Nat} {s : Scope} {item : Option (Text × Entry)}
    (declared : ∀ name entry, item = some (name, entry) → Declares line s name entry) :
    Reads line s (storedItem state s number item).scope := by
  cases result : (storedItem state s number item).result with
  | error error =>
    rw [(storedItem_error result).2.1]
    exact .nothing s
  | ok recognized =>
    have stored := storedItem_ok result
    generalize (storedItem state s number item).scope = after at stored
    cases stored with
    | skipped => exact .nothing s
    | assigned step => exact .stores (declared _ _ rfl) step

theorem reads_lineEnums (opened : Option Text) (anonymous : Counters) (number : Nat) (s : Scope) :
    Reads line s (lineEnums opened anonymous number line s).scope := by
  cases result : (lineEnums opened anonymous number line s).result with
  | error error =>
    rw [(lineEnums_error result).1]
    exact .nothing s
  | ok recognized =>
    obtain ⟨opened', anonymous', -, step⟩ := lineEnums_ok result
    generalize (lineEnums opened anonymous number line s).scope = after at step
    cases step with
    | opens opening step => exact .stores (.enumeration opening anonymous) step
    | adds _ _ _ _ step => exact .adds step
    | nested | outside | closes | blank => exact .nothing s

mutual

/-- A reader does nothing but that, whether it fails or not. -/
theorem reads_line : (reader : Reader) → (number : Nat) → (s : Scope) →
    Reads line s (reader.line number line s).scope
  | .constants, number, s => by
    rw [Reader.line, lineConstants_eq]
    refine reads_storedItem fun name entry item => ?_
    obtain ⟨⟨plain, raw⟩, constant, same⟩ := Option.map_eq_some_iff.1 item
    cases same
    exact .constant constant
  | .enums opened anonymous, number, s => by
    rw [Reader.line]
    exact reads_lineEnums opened anonymous number s
  | .records, number, s => by
    rw [Reader.line, lineRecords_eq]
    refine reads_storedItem fun name entry item => ?_
    obtain ⟨⟨plain, fields⟩, record, same⟩ := Option.map_eq_some_iff.1 item
    cases same
    exact .record record
  | .literals counters, number, s => by
    rw [Reader.line, lineLiterals_eq]
    refine reads_storedItem fun name entry item => ?_
    obtain ⟨⟨plain, raw⟩, literal, same⟩ := Option.map_eq_some_iff.1 item
    cases same
    exact .literal literal counters
  | .group config members, number, s => by
    rw [Reader.line]
    exact reads_lineAll members number s

theorem reads_lineAll : (readers : List Reader) → (number : Nat) → (s : Scope) →
    Reads line s (lineAll readers number line s).scope
  | [], number, s => by
    rw [lineAll]
    exact .nothing s
  | reader :: rest, number, s => by
    have first := reads_line reader number s
    cases result : (reader.line number line s).result with
    | error error =>
      rw [lineAll_cons_of_error result]
      exact first
    | ok recognized =>
      rw [lineAll_cons_of_ok result]
      exact .several first (reads_lineAll rest number _)

end

theorem readLines_induction {motive : Scope → Prop} {lines : List Text} {s : Scope}
    (start : motive s)
    (step : ∀ line ∈ lines, ∀ s s', Reads line s s' → motive s → motive s') (reader : Reader)
    (number : Nat) : motive (reader.readLines number lines s).scope := by
  induction lines generalizing reader number s with
  | nil => exact start
  | cons line rest ih =>
    have first := step line (List.mem_cons_self ..) _ _ (reads_line reader number s) start
    rw [readLines]
    split
    · exact first
    · exact first
    · exact ih first (fun other mem => step other (.tail _ mem)) _ _

/-- What reading a line keeps is kept while a dump is read, also when that fails. -/
theorem readInto_induction {motive : Scope → Prop} {dump : Text} {s : Scope} (start : motive s)
    (step : ∀ line ∈ Text.lines dump, ∀ s s', Reads line s s' → motive s → motive s')
    (reader : Reader) : motive (reader.readInto dump s).scope :=
  readLines_induction start step reader 1

/-! ## Distinct names -/

theorem Reads.wellNamed {s s' : Scope} (h : Reads line s s') (names : WellNamed s) :
    WellNamed s' := by
  induction h with
  | nothing s => exact names
  | @stores s s' name entry declared step =>
    refine (assigned_path step).wellNamed names fun members inside => ?_
    cases declared with
    | constant | literal | enumeration => cases inside
    | record =>
      cases inside
      rcases holds_of_members? s name with none | ⟨container, there, members⟩
      · rw [none]
        exact wellNamed_empty
      · exact names.of_holds there members
  | adds step =>
    obtain ⟨e, e', -, -, step⟩ := assigned_of_addEnumerator step
    exact step.wellNamed names fun members inside => by cases inside
  | several _ _ first later => exact later (first names)

theorem wellNamed_readInto {s : Scope} (names : WellNamed s) (reader : Reader) (dump : Text) :
    WellNamed (reader.readInto dump s).scope :=
  readInto_induction names (fun _ _ _ _ reads => reads.wellNamed) reader

end ConstantDump.Reader
