import ConstantDump.Proofs.Reader.Line

/-!
Readers inside readers. The leaves of a reader are the readers in it that are no groups; a line
that none of them recognises is left to the configurations of the groups.

* `line_of_leaves_declined`: such a line changes nothing;
* `leaves_declined`: a line that a reader does not recognise is one that none of its leaves
  recognises;
* `line_ok_false_iff`: both together, for any nesting.
-/

namespace ConstantDump.Reader

variable {number : Nat} {text : Text} {s : Scope}

mutual

/-- The readers in a reader that are no groups, in order. -/
def leaves : Reader → List Reader
  | .constants => [.constants]
  | .enums opened anonymous => [.enums opened anonymous]
  | .records => [.records]
  | .literals counters => [.literals counters]
  | .group _ members => leavesAll members

def leavesAll : List Reader → List Reader
  | [] => []
  | reader :: rest => reader.leaves ++ leavesAll rest

end

mutual

/-- Whether a reader accepts a line that none of its leaves recognises. -/
def accepts : Reader → Text → Bool
  | .group config members, text => config.accepts (acceptsAny members text) text
  | _, _ => false

def acceptsAny : List Reader → Text → Bool
  | [], _ => false
  | reader :: rest, text => reader.accepts text || acceptsAny rest text

end

mutual

/-- A line that no leaf recognises changes nothing, and is accepted or not whatever the readers
have read. -/
theorem line_of_leaves_declined : (reader : Reader) →
    (∀ leaf ∈ reader.leaves, (leaf.line number text s).result = .ok false) →
      reader.line number text s = ⟨reader, s, .ok (reader.accepts text)⟩
  | .constants, h => line_declined _ (h _ (List.mem_singleton_self _))
  | .enums opened anonymous, h => line_declined _ (h _ (List.mem_singleton_self _))
  | .records, h => line_declined _ (h _ (List.mem_singleton_self _))
  | .literals counters, h => line_declined _ (h _ (List.mem_singleton_self _))
  | .group config members, h => by
    rw [Reader.line, lineAll_of_leaves_declined members h]
    rfl

theorem lineAll_of_leaves_declined : (readers : List Reader) →
    (∀ leaf ∈ leavesAll readers, (leaf.line number text s).result = .ok false) →
      lineAll readers number text s = ⟨readers, s, .ok (acceptsAny readers text)⟩
  | [], _ => by
    rw [lineAll]
    rfl
  | reader :: rest, h => by
    obtain ⟨here, others⟩ := List.forall_mem_append.1 h
    have first := line_of_leaves_declined reader here
    have ok : (reader.line number text s).result = .ok (reader.accepts text) := by rw [first]
    rw [lineAll_cons_of_ok ok, first, lineAll_of_leaves_declined rest others]
    rfl

end

mutual

/-- No leaf recognises what the whole reader does not. -/
theorem leaves_declined : (reader : Reader) →
    (reader.line number text s).result = .ok false →
      ∀ leaf ∈ reader.leaves, (leaf.line number text s).result = .ok false
  | .constants, h => by simpa only [leaves, List.forall_mem_singleton] using h
  | .enums opened anonymous, h => by simpa only [leaves, List.forall_mem_singleton] using h
  | .records, h => by simpa only [leaves, List.forall_mem_singleton] using h
  | .literals counters, h => by simpa only [leaves, List.forall_mem_singleton] using h
  | .group config members, h => by
    rw [Reader.line] at h
    cases hr : (lineAll members number text s).result with
    | error error =>
      simp only [hr] at h
      cases h
    | ok recognized =>
      simp only [hr] at h
      have refused : config.accepts recognized text = false := Except.ok.inj h
      obtain rfl : recognized = false := by
        simp only [Config.accepts, Bool.or_eq_false_iff] at refused
        exact refused.1.1
      exact leavesAll_declined members hr

theorem leavesAll_declined : (readers : List Reader) →
    (lineAll readers number text s).result = .ok false →
      ∀ leaf ∈ leavesAll readers, (leaf.line number text s).result = .ok false
  | [], _ => by simp [leavesAll]
  | reader :: rest, h => by
    obtain ⟨first, others, here, later, same⟩ := lineAll_cons_ok h
    obtain ⟨rfl, rfl⟩ : first = false ∧ others = false := by simpa using same
    -- The first reader leaves the scope for the others as it was.
    rw [line_declined reader here] at later
    exact List.forall_mem_append.2
      ⟨leaves_declined reader here, leavesAll_declined rest later⟩

end

/-- A reader of any nesting, with any configurations and in any state, declines a line just when
each of its leaves does and no configuration accepts the line all the same. Then nothing changes:
not the scope, and in no leaf the open enumeration or a count. -/
theorem line_ok_false_iff (reader : Reader) (number : Nat) (text : Text) (s : Scope) :
    ((reader.line number text s).result = .ok false ↔
      (∀ leaf ∈ reader.leaves, (leaf.line number text s).result = .ok false) ∧
        reader.accepts text = false) ∧
    ((reader.line number text s).result = .ok false →
      (reader.line number text s).state = reader ∧ (reader.line number text s).scope = s ∧
        ∀ leaf ∈ reader.leaves, leaf.line number text s = declined leaf s) := by
  refine ⟨⟨fun h => ?_, fun ⟨leaves, refused⟩ => ?_⟩, fun h => ?_⟩
  · have leaves := leaves_declined reader h
    have whole := line_of_leaves_declined reader leaves
    rw [whole] at h
    exact ⟨leaves, Except.ok.inj h⟩
  · rw [line_of_leaves_declined reader leaves, refused]
  · rw [line_declined reader h]
    exact ⟨rfl, rfl, fun leaf mem => line_declined leaf (leaves_declined reader h leaf mem)⟩

/-- A reader with one inside it that has an enumeration open and has counted literals; blank
lines are not accepted. -/
def nested : Reader :=
  .group ⟨true, false⟩
    [.records,
      .group ⟨true, false⟩ [.enums (some ['E']) .empty, .literals (.ofList [([], 2)])],
      .constants]

theorem line_ok_false_iff_nested :
    (nested.line 7 [' '] .empty).result = .ok false ∧
    (nested.line 7 [' '] .empty).state = nested ∧ (nested.line 7 [' '] .empty).scope = .empty := by
  have blank : (nested.line 7 [' '] .empty).result = .ok false := rfl
  obtain ⟨state, scope, -⟩ := (line_ok_false_iff nested 7 [' '] .empty).2 blank
  exact ⟨blank, state, scope⟩

end ConstantDump.Reader
