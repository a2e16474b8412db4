import ConstantDump.Proofs.Reader.Line
import ConstantDump.Reader.Dump
import ConstantDump.Reader.Single

/-!
Readers that were used before. Whatever a reader has been asked, and however that ended, it is
put together as it was, and a reset makes it new.

* `reset_line`, `reset_single`, `reset_readLines`: one call leaves no more than a reset undoes;
* `reset_history`: neither does any sequence of calls;
* `read_after_history`: hence a whole dump is read as a new reader reads it.
-/

namespace ConstantDump.Reader

/-- How a reader is put together, apart from what it has read. -/
inductive Plan
  | constants
  | enums
  | records
  | literals
  | group (config : Config) (members : List Plan)

namespace Plan

mutual

def build : Plan → Reader
  | .constants => .constants
  | .enums => .enums none .empty
  | .records => .records
  | .literals => .literals .empty
  | .group config members => .group config (buildAll members)

def buildAll : List Plan → List Reader
  | [] => []
  | plan :: rest => plan.build :: buildAll rest

end

end Plan

inductive Request
  | read (dump : Text)
  | readInto (dump : Text) (s : Scope)
  | line (number : Nat) (text : Text) (s : Scope)
  | single (text : Text)
  | reset

/-- The reader after a request, whether it was met or refused. -/
def after (reader : Reader) : Request → Reader
  | .read dump => (reader.read dump).reader
  | .readInto dump s => (reader.readInto dump s).reader
  | .line number text s => (reader.line number text s).state
  | .single text => (reader.single text).1
  | .reset => reader.reset

def afterAll (reader : Reader) (history : List Request) : Reader := history.foldl after reader

/-! ## A reset makes new -/

mutual

theorem reset_build : (plan : Plan) → plan.build.reset = plan.build
  | .constants | .enums | .records | .literals => by rw [Plan.build, reset]
  | .group config members => by rw [Plan.build, reset, resetAll_buildAll members]

theorem resetAll_buildAll : (plans : List Plan) →
    resetAll (Plan.buildAll plans) = Plan.buildAll plans
  | [] => by rw [Plan.buildAll, resetAll]
  | plan :: rest => by
    rw [Plan.buildAll, resetAll, reset_build plan, resetAll_buildAll rest]

end

mutual

theorem reset_reset : (reader : Reader) → reader.reset.reset = reader.reset
  | .constants | .enums _ _ | .records | .literals _ => by simp only [reset]
  | .group config members => by rw [reset, reset, resetAll_resetAll members]

theorem resetAll_resetAll : (readers : List Reader) →
    resetAll (resetAll readers) = resetAll readers
  | [] => by simp only [resetAll]
  | reader :: rest => by
    rw [resetAll, resetAll, reset_reset reader, resetAll_resetAll rest]

end

/-! ## What one call leaves -/

theorem reset_openEnum (anonymous : Counters) (number : Nat) (name : Text) (s : Scope) :
    (openEnum anonymous number name s).state.reset = .enums none .empty := by
  simp only [openEnum]
  split <;> rw [reset]

theorem reset_lineEnums (opened : Option Text) (anonymous : Counters) (number : Nat)
    (text : Text) (s : Scope) :
    (lineEnums opened anonymous number text s).state.reset = .enums none .empty := by
  unfold lineEnums
  split
  · rw [declined, reset]
  · exact reset_openEnum ..
  · rw [declined, reset]
  · -- The enumeration is open: its closing line, a blank one, an enumerator or a refused line.
    split
    · rw [reset]
    · split
      · rw [declined, reset]
      · split <;> rw [reset]

mutual

/-- A line leaves no more than a reset undoes, also when it is refused halfway. -/
theorem reset_line (number : Nat) (text : Text) (s : Scope) :
    (reader : Reader) → (reader.line number text s).state.reset = reader.reset
  | .constants => by rw [line, lineConstants_eq, storedItem_state]
  | .enums opened anonymous => by rw [line, reset_lineEnums, reset]
  | .records => by rw [line, lineRecords_eq, storedItem_state]
  | .literals counters => by rw [line, lineLiterals_eq, storedItem_state, reset, reset]
  | .group config members => by rw [line, reset, reset, resetAll_lineAll number text s members]

theorem resetAll_lineAll (number : Nat) (text : Text) (s : Scope) :
    (readers : List Reader) → resetAll (lineAll readers number text s).state = resetAll readers
  | [] => by rw [lineAll, declined]
  | reader :: rest => by
    have here := reset_line number text s reader
    rw [lineAll]
    dsimp only
    -- After an error the rest has not seen the line.
    split
    · rw [resetAll, resetAll, here]
    · rw [resetAll, resetAll, here, resetAll_lineAll number text _ rest]

end

mutual

theorem reset_single (text : Text) :
    (reader : Reader) → (reader.single text).1.reset = reader.reset
  | .constants => by
    rw [single]
    split <;> rfl
  | .enums opened anonymous => by rw [single]
  | .records => by
    rw [single]
    split <;> rfl
  | .literals counters => by
    rw [single]
    split
    · rfl
    · rw [reset, reset]
  | .group config members => by
    rw [single, reset, reset, resetAll_singleFirst text members]

theorem resetAll_singleFirst (text : Text) :
    (readers : List Reader) → resetAll (singleFirst readers text).1 = resetAll readers
  | [] => by rw [singleFirst]
  | reader :: rest => by
    have here := reset_single text reader
    rw [singleFirst]
    dsimp only
    split
    · rw [resetAll, resetAll, here]
    · rw [resetAll, resetAll, here, resetAll_singleFirst text rest]

end

/-- A run over lines leaves no more than a reset undoes, wherever it ends. -/
theorem reset_readLines (reader : Reader) (number : Nat) (lines : List Text) (s : Scope) :
    (reader.readLines number lines s).reader.reset = reader.reset := by
  induction lines generalizing reader number s with
  | nil => rw [readLines]
  | cons text rest ih =>
    have here := reset_line number text s reader
    rw [readLines]
    split
    · exact here
    · exact here
    · rw [ih, here]

/-! ## Histories -/

theorem reset_after (reader : Reader) (request : Request) :
    (reader.after request).reset = reader.reset := by
  cases request with
  | read dump => exact (reset_readLines ..).trans (reset_reset reader)
  | readInto dump s => exact reset_readLines ..
  | line number text s => exact reset_line number text s reader
  | single text => exact reset_single text reader
  | reset => exact reset_reset reader

theorem reset_history (reader : Reader) (history : List Request) :
    (reader.afterAll history).reset = reader.reset := by
  induction history generalizing reader with
  | nil => rfl
  | cons request rest ih => exact (ih (reader.after request)).trans (reset_after reader request)

/-- A reader of any plan reads a dump as a new one of that plan does, whatever it was asked
before: the same result, scope or error, and the same reader afterwards. That is how the new one
reads the dump into an empty scope. -/
theorem read_after_history (plan : Plan) (history : List Request) (dump : Text) :
    (plan.build.afterAll history).read dump = plan.build.read dump ∧
      plan.build.read dump = plan.build.readInto dump .empty := by
  constructor
  · rw [read, read, reset_history]
  · rw [read, reset_build]

/-- Without a reset, what was read before does count: here an enumeration is still open. -/
example :
    let used := (Reader.standard .default).after (.read "enum E \x7b\n?".toList)
    ((Reader.standard .default).readInto "A = x".toList .empty).result.isOk = true ∧
      (used.readInto "A = x".toList .empty).result.isOk = false ∧
      (used.read "A = x".toList).result.isOk = true := by
  decide +kernel

end ConstantDump.Reader
