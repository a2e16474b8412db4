import ConstantDump.Proofs.Reader.History
import ConstantDump.Proofs.Reader.Leaves

/-!
Groups inside groups. A group that accepts just what its members recognise can be left out: what
is around it can have its members instead.

* `lineAll_leaves`: such a reader does with a line what its leaves do, one after the other;
* `singleFirst_leaves`: in a line read alone, any reader finds what the first of its leaves finds;
* `line_flat`, `readLines_flat`: so a group with its leaves in place of its members reads as
  before;
* `answer_flat`: no request tells the two apart, nor what is left of them;
* `answers_flat`: neither does any sequence of requests.
-/

namespace ConstantDump

/-- Accept just what a member recognises. -/
def Config.transparent : Config := ⟨true, false⟩

theorem Config.accepts_transparent (recognized : Bool) (text : Text) :
    Config.transparent.accepts recognized text = recognized := by
  simp [Config.accepts, Config.transparent]

namespace Reader

variable {number : Nat} {text : Text} {s : Scope}

mutual

/-- Whether all groups in a reader accept just what their members recognise. -/
def isTransparent : Reader → Bool
  | .group config members => config = .transparent && allTransparent members
  | _ => true

def allTransparent : List Reader → Bool
  | [] => true
  | reader :: rest => reader.isTransparent && allTransparent rest

end

/-- Whether the groups inside a reader are transparent; the reader itself need not be. -/
def innerTransparent : Reader → Bool
  | .group _ members => allTransparent members
  | _ => true

/-- The group with its leaves in place of its members. -/
def flat : Reader → Reader
  | .group config members => .group config (leavesAll members)
  | reader => reader

def isLeaf : Reader → Bool
  | .group _ _ => false
  | _ => true

theorem leaves_of_isLeaf {reader : Reader} (h : reader.isLeaf = true) :
    reader.leaves = [reader] := by
  cases reader with
  | group config members => cases h
  | constants | enums | records | literals => rw [leaves]

/-! ## What a request leaves of a reader -/

theorem isLeaf_reset (reader : Reader) : reader.reset.isLeaf = reader.isLeaf := by
  cases reader <;> rw [reset] <;> rfl

mutual

theorem isTransparent_reset : (reader : Reader) →
    reader.reset.isTransparent = reader.isTransparent
  | .constants | .enums _ _ | .records | .literals _ => by simp only [reset, isTransparent]
  | .group config members => by
    rw [reset, isTransparent, isTransparent, allTransparent_resetAll members]

theorem allTransparent_resetAll : (readers : List Reader) →
    allTransparent (resetAll readers) = allTransparent readers
  | [] => by rw [resetAll]
  | reader :: rest => by
    rw [resetAll, allTransparent, allTransparent, isTransparent_reset reader,
      allTransparent_resetAll rest]

end

theorem innerTransparent_reset (reader : Reader) :
    reader.reset.innerTransparent = reader.innerTransparent := by
  cases reader with
  | group config members =>
    rw [reset, innerTransparent, innerTransparent, allTransparent_resetAll]
  | constants | enums | records | literals => rw [reset] <;> rfl

/-- A property that a reset leaves alone is the same for readers that a reset makes the same. -/
theorem congr_of_reset {property : Reader → Bool}
    (kept : ∀ reader, property reader.reset = property reader) {reader other : Reader}
    (same : other.reset = reader.reset) : property other = property reader := by
  rw [← kept other, same, kept reader]

theorem isLeaf_line (reader : Reader) :
    (reader.line number text s).state.isLeaf = reader.isLeaf :=
  congr_of_reset isLeaf_reset (reset_line number text s reader)

theorem isLeaf_single (reader : Reader) : (reader.single text).1.isLeaf = reader.isLeaf :=
  congr_of_reset isLeaf_reset (reset_single text reader)

theorem resetAll_append (first second : List Reader) :
    resetAll (first ++ second) = resetAll first ++ resetAll second := by
  induction first with
  | nil => rw [resetAll, List.nil_append, List.nil_append]
  | cons reader first ih => rw [List.cons_append, resetAll, resetAll, ih, List.cons_append]

mutual

theorem leaves_reset : (reader : Reader) → reader.reset.leaves = resetAll reader.leaves
  | .constants | .enums _ _ | .records | .literals _ => by simp only [reset, leaves, resetAll]
  | .group config members => by rw [reset, leaves, leaves, leavesAll_resetAll members]

theorem leavesAll_resetAll : (readers : List Reader) →
    leavesAll (resetAll readers) = resetAll (leavesAll readers)
  | [] => by simp only [resetAll, leavesAll]
  | reader :: rest => by
    rw [resetAll, leavesAll, leavesAll, leaves_reset reader, leavesAll_resetAll rest,
      resetAll_append]

end

/-! ## Lines -/

theorem map_false_or (result : Except ReadError Bool) : result.map (false || ·) = result := by
  cases result <;> rfl

theorem map_or_map (one others : Bool) (result : Except ReadError Bool) :
    (result.map (others || ·)).map (one || ·) = result.map (one || others || ·) := by
  cases result with
  | error error => rfl
  | ok recognized => simp [Except.map, Bool.or_assoc]

theorem lineAll_append_of_ok {first second : List Reader} {recognized : Bool}
    (h : (lineAll first number text s).result = .ok recognized) :
    lineAll (first ++ second) number text s =
      ⟨(lineAll first number text s).state ++
          (lineAll second number text (lineAll first number text s).scope).state,
        (lineAll second number text (lineAll first number text s).scope).scope,
        (lineAll second number text (lineAll first number text s).scope).result.map
          (recognized || ·)⟩ := by
  induction first generalizing s recognized with
  | nil =>
    rw [lineAll] at h ⊢
    obtain rfl : false = recognized := Except.ok.inj h
    rw [declined, map_false_or, List.nil_append, List.nil_append]
  | cons reader first ih =>
    obtain ⟨one, others, here, later, rfl⟩ := lineAll_cons_ok h
    rw [List.cons_append, lineAll_cons_of_ok here, lineAll_cons_of_ok here, ih later]
    rw [map_or_map, List.cons_append]

theorem lineAll_append_of_error {first : List Reader} {error : ReadError}
    (h : (lineAll first number text s).result = .error error) (second : List Reader) :
    lineAll (first ++ second) number text s =
      ⟨(lineAll first number text s).state ++ second, (lineAll first number text s).scope,
        .error error⟩ := by
  induction first generalizing s with
  | nil =>
    rw [lineAll] at h
    cases h
  | cons reader first ih =>
    rcases lineAll_cons_error h with here | ⟨one, here, later⟩
    · rw [List.cons_append, lineAll_cons_of_error here, lineAll_cons_of_error here,
        List.cons_append]
    · rw [List.cons_append, lineAll_cons_of_ok here, lineAll_cons_of_ok here, ih later]
      rfl

theorem lineAll_singleton (reader : Reader) :
    lineAll [reader] number text s =
      ⟨[(reader.line number text s).state], (reader.line number text s).scope,
        (reader.line number text s).result⟩ := by
  cases here : (reader.line number text s).result with
  | error error => rw [lineAll_cons_of_error here]
  | ok recognized =>
    rw [lineAll_cons_of_ok here, lineAll]
    simp [declined, Except.map]

theorem lineAll_of_isLeaf {reader : Reader} (h : reader.isLeaf = true) :
    lineAll reader.leaves number text s =
      ⟨(reader.line number text s).state.leaves, (reader.line number text s).scope,
        (reader.line number text s).result⟩ := by
  have after : (reader.line number text s).state.isLeaf = true := (isLeaf_line reader).trans h
  rw [leaves_of_isLeaf h, leaves_of_isLeaf after, lineAll_singleton]

mutual

/-- With a line, a transparent reader does what its leaves do, and what it leaves has the leaves
that they leave. -/
theorem lineAll_leaves (number : Nat) (text : Text) (s : Scope) : (reader : Reader) →
    reader.isTransparent = true →
      lineAll reader.leaves number text s =
        ⟨(reader.line number text s).state.leaves, (reader.line number text s).scope,
          (reader.line number text s).result⟩
  | .constants, _ | .enums _ _, _ | .records, _ | .literals _, _ => lineAll_of_isLeaf rfl
  | .group config members, h => by
    rw [isTransparent, Bool.and_eq_true, decide_eq_true_eq] at h
    obtain ⟨rfl, inner⟩ := h
    rw [leaves, lineAll_leavesAll number text s members inner, line]
    simp only [leaves, Config.accepts_transparent]
    cases (lineAll members number text s).result <;> rfl

theorem lineAll_leavesAll (number : Nat) (text : Text) (s : Scope) : (readers : List Reader) →
    allTransparent readers = true →
      lineAll (leavesAll readers) number text s =
        ⟨leavesAll (lineAll readers number text s).state, (lineAll readers number text s).scope,
          (lineAll readers number text s).result⟩
  | [], _ => by
    rw [leavesAll, lineAll]
    rfl
  | reader :: rest, h => by
    rw [allTransparent, Bool.and_eq_true] at h
    have first := lineAll_leaves number text s reader h.1
    rw [leavesAll]
    cases here : (reader.line number text s).result with
    | error error =>
      -- The first reader stops the rest, and its leaf that fails stops the leaves behind it.
      have failed : (lineAll reader.leaves number text s).result = .error error := by
        rw [first, here]
      rw [lineAll_append_of_error failed, lineAll_cons_of_error here, first, leavesAll]
    | ok recognized =>
      have read : (lineAll reader.leaves number text s).result = .ok recognized := by
        rw [first, here]
      have others := lineAll_leavesAll number text (reader.line number text s).scope rest h.2
      rw [lineAll_append_of_ok read, lineAll_cons_of_ok here, first, leavesAll, others]

end

/-! ## Lines that are read alone -/

theorem singleFirst_append (first second : List Reader) :
    singleFirst (first ++ second) text =
      match (singleFirst first text).2 with
      | some item => ((singleFirst first text).1 ++ second, some item)
      | none =>
        ((singleFirst first text).1 ++ (singleFirst second text).1,
          (singleFirst second text).2) := by
  induction first with
  | nil => simp [singleFirst]
  | cons reader first ih =>
    simp only [List.cons_append, singleFirst]
    cases (reader.single text).2 with
    | ok item => rfl
    | error error =>
      simp only [ih]
      cases (singleFirst first text).2 <;> rfl

theorem singleFirst_of_isLeaf {reader : Reader} (h : reader.isLeaf = true) :
    singleFirst reader.leaves text =
      ((reader.single text).1.leaves, (reader.single text).2.toOption) := by
  have after : (reader.single text).1.isLeaf = true := (isLeaf_single reader).trans h
  rw [leaves_of_isLeaf h, leaves_of_isLeaf after]
  simp only [singleFirst]
  cases (reader.single text).2 <;> rfl

mutual

/-- What a reader finds in a line alone is what the first of its leaves finds. The other errors of
its leaves do not show. -/
theorem singleFirst_leaves (text : Text) : (reader : Reader) →
    singleFirst reader.leaves text =
      ((reader.single text).1.leaves, (reader.single text).2.toOption)
  | .constants | .enums _ _ | .records | .literals _ => singleFirst_of_isLeaf rfl
  | .group config members => by
    rw [leaves, singleFirst_leavesAll text members, single]
    simp only [leaves]
    cases (singleFirst members text).2 <;> rfl

theorem singleFirst_leavesAll (text : Text) : (readers : List Reader) →
    singleFirst (leavesAll readers) text =
      (leavesAll (singleFirst readers text).1, (singleFirst readers text).2)
  | [] => by
    rw [leavesAll, singleFirst]
    rfl
  | reader :: rest => by
    rw [leavesAll, singleFirst_append, singleFirst_leaves text reader,
      singleFirst_leavesAll text rest]
    simp only [singleFirst]
    cases (reader.single text).2 <;> rfl

end

/-! ## Requests -/

/-- What a request is answered with: the result, and the scope that is left of one that was
given. -/
inductive Answer
  | read (result : Except ReadError Scope)
  | readInto (s : Scope) (result : Except ReadError Unit)
  | line (s : Scope) (result : Except ReadError Bool)
  | single (result : Except ReadError (Text × Entry))
  | reset

def answer (reader : Reader) : Request → Answer
  | .read dump =>
    let outcome := reader.read dump
    .read (outcome.result.map fun _ => outcome.scope)
  | .readInto dump s =>
    let outcome := reader.readInto dump s
    .readInto outcome.scope outcome.result
  | .line number text s =>
    let outcome := reader.line number text s
    .line outcome.scope outcome.result
  | .single text => .single (reader.single text).2
  | .reset => .reset

def answers (reader : Reader) : List Request → List Answer
  | [] => []
  | request :: rest => reader.answer request :: (reader.after request).answers rest

theorem flat_of_isLeaf {reader : Reader} (h : reader.isLeaf = true) : reader.flat = reader := by
  cases reader with
  | group config members => cases h
  | constants | enums | records | literals => rfl

theorem line_flat_of_isLeaf {reader : Reader} (h : reader.isLeaf = true) :
    reader.flat.line number text s =
      ⟨(reader.line number text s).state.flat, (reader.line number text s).scope,
        (reader.line number text s).result⟩ := by
  have after : (reader.line number text s).state.isLeaf = true := (isLeaf_line reader).trans h
  rw [flat_of_isLeaf h, flat_of_isLeaf after]

theorem line_flat (number : Nat) (text : Text) (s : Scope) : (reader : Reader) →
    reader.innerTransparent = true →
      reader.flat.line number text s =
        ⟨(reader.line number text s).state.flat, (reader.line number text s).scope,
          (reader.line number text s).result⟩
  | .constants, _ | .enums _ _, _ | .records, _ | .literals _, _ => line_flat_of_isLeaf rfl
  | .group config members, h => by
    rw [flat, line, line, lineAll_leavesAll number text s members h]
    rfl

theorem readLines_flat {reader : Reader} (h : reader.innerTransparent = true) (number : Nat)
    (lines : List Text) (s : Scope) :
    reader.flat.readLines number lines s =
      ⟨(reader.readLines number lines s).reader.flat, (reader.readLines number lines s).scope,
        (reader.readLines number lines s).result⟩ := by
  induction lines generalizing reader number s with
  | nil => rw [readLines, readLines]
  | cons text rest ih =>
    have inner : (reader.line number text s).state.innerTransparent = true :=
      (congr_of_reset innerTransparent_reset (reset_line number text s reader)).trans h
    have onward := ih inner (number + 1) (reader.line number text s).scope
    rw [readLines, readLines, line_flat number text s reader h]
    cases (reader.line number text s).result with
    | error error => rfl
    | ok recognized =>
      cases recognized with
      | true => exact onward
      | false => rfl

theorem single_flat_of_isLeaf {reader : Reader} (h : reader.isLeaf = true) :
    reader.flat.single text = ((reader.single text).1.flat, (reader.single text).2) := by
  have after : (reader.single text).1.isLeaf = true := (isLeaf_single reader).trans h
  rw [flat_of_isLeaf h, flat_of_isLeaf after]

theorem single_flat (text : Text) : (reader : Reader) →
    reader.flat.single text = ((reader.single text).1.flat, (reader.single text).2)
  | .constants | .enums _ _ | .records | .literals _ => single_flat_of_isLeaf rfl
  | .group config members => by
    rw [flat, single, single, singleFirst_leavesAll text members]
    rfl

theorem reset_flat (reader : Reader) : reader.flat.reset = reader.reset.flat := by
  cases reader with
  | group config members => rw [flat, reset, reset, flat, leavesAll_resetAll]
  | constants | enums | records | literals => simp only [flat, reset]

/-- No request tells a reader from the flat one, and the one leaves the flat form of what the
other leaves. -/
theorem answer_flat {reader : Reader} (h : reader.innerTransparent = true) (request : Request) :
    reader.flat.answer request = reader.answer request ∧
      reader.flat.after request = (reader.after request).flat := by
  cases request with
  | read dump =>
    have anew : reader.reset.innerTransparent = true := (innerTransparent_reset reader).trans h
    have same := readLines_flat anew 1 (Text.lines dump) .empty
    simp only [answer, after, read, readInto, reset_flat, same, and_self]
  | readInto dump s =>
    have same := readLines_flat h 1 (Text.lines dump) s
    simp only [answer, after, readInto, same, and_self]
  | line number text s =>
    simp only [answer, after, line_flat number text s reader h, and_self]
  | single text => simp only [answer, after, single_flat, and_self]
  | reset => exact ⟨rfl, reset_flat reader⟩

/-- A group of any configuration whose inner groups are all strict and accept no blank lines for
being blank, at any depth, against the group of the same configuration with the leaves of that tree
as its members, from left to right. To any sequence of requests, to read a dump anew or into a
scope, a line in a dump or alone, or to reset, both give the same answers: results, errors and
scopes. Afterwards the leaves of the one are the members of the other, with the same open
enumerations and the same counts. -/
theorem answers_flat (reader : Reader) (h : reader.innerTransparent = true)
    (history : List Request) :
    reader.flat.answers history = reader.answers history ∧
      reader.flat.afterAll history = (reader.afterAll history).flat := by
  induction history generalizing reader with
  | nil => exact ⟨rfl, rfl⟩
  | cons request rest ih =>
    obtain ⟨same, left⟩ := answer_flat h request
    have inner : (reader.after request).innerTransparent = true :=
      (congr_of_reset innerTransparent_reset (reset_after reader request)).trans h
    obtain ⟨later, last⟩ := ih (reader.after request) inner
    refine ⟨?_, ?_⟩
    · rw [answers, answers, same, left, later]
    · rw [afterAll, List.foldl_cons, left]
      exact last

/-- The members of the standard reader at several depths, with a group of none among them. -/
def layered : Reader :=
  .group .default
    [.group .transparent [.records, .group .transparent [.enums none .empty]],
      .group .transparent [], .constants, .group .transparent [.literals .empty]]

/-- Requests of all kinds; the second line of the dump is refused halfway. -/
def requests : List Request :=
  [.readInto "enum E \x7b\nP\x7bx\x7d".toList .empty, .line 7 "A = 1".toList .empty,
    .single "# literal (literal) = 2".toList, .reset, .read "# literal (literal) = 3".toList]

theorem answers_flat_layered :
    layered.innerTransparent = true ∧
    (standard .default).answers requests = layered.answers requests ∧
    (standard .default).afterAll requests = (layered.afterAll requests).flat := by
  have inner : layered.innerTransparent = true := by decide
  exact ⟨inner, answers_flat layered inner requests⟩

/-- An inner group that accepts blank lines makes a difference. -/
example :
    let inner := group .default [.constants]
    let outer := group .transparent [inner]
    (outer.line 1 [' '] .empty).result.toOption = some true ∧
      (outer.flat.line 1 [' '] .empty).result.toOption = some false := by
  decide +kernel

end Reader

end ConstantDump
