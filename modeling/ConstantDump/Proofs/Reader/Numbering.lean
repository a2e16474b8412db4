import ConstantDump.Proofs.Name.Identifier
import ConstantDump.Proofs.Name.Numbered
import ConstantDump.Proofs.Reader.Line
import ConstantDump.Proofs.Scope.Obstacle
import ConstantDump.Proofs.Scope.Value
import ConstantDump.Scope.Equality

/-!
The numbers of literals. A count is kept for each enclosing scope, under the name that the
enclosing part of a literal's name stands for on its own.

* `Counters.count_after`: a count goes up by the names of its scope;
* `Counters.nodup_paths`: numbered names are stored in different places;
* `feed_literals_places`: what a reader of literals stores, where, and what is left of it.
-/

namespace ConstantDump

namespace Name

def scopeOf (name : Text) : List Text := (path name).dropLast

theorem scopeOf_numbered {name : Text} (h : Traceless name) (n : Nat) :
    scopeOf (numbered name n) = scopePath (Counters.enclosing name) := by
  rw [scopeOf, path_numbered h, List.dropLast_concat]
  rfl

/-- Numbered names are stored in one scope when their enclosing parts are counted together. -/
theorem scopeOf_numbered_eq_iff {name other : Text} (h : Traceless name) (h' : Traceless other)
    (m n : Nat) : scopeOf (numbered name m) = scopeOf (numbered other n) ↔
      Counters.enclosing name = Counters.enclosing other := by
  rw [scopeOf_numbered h, scopeOf_numbered h']
  constructor
  · intro same
    exact scopePath_injective same
  · intro same
    rw [same]

/-- What the place of a numbered name tells. -/
theorem path_numbered_eq_iff {name other : Text} (h : Traceless name) (h' : Traceless other)
    {m n : Nat} : path (numbered name m) = path (numbered other n) ↔
      Counters.enclosing name = Counters.enclosing other ∧
        withoutMarkers (splitLast name).2 = withoutMarkers (splitLast other).2 ∧ m = n := by
  rw [path_numbered h, path_numbered h']
  constructor
  · intro same
    obtain ⟨scopes, last⟩ := List.append_inj' same rfl
    obtain ⟨local_part, number⟩ := numbered_injective (List.cons.inj last).1
    exact ⟨scopePath_injective scopes, local_part, number⟩
  · rintro ⟨scopes, local_part, rfl⟩
    rw [local_part]
    exact congrArg (scopePath · ++ _) scopes

end Name

namespace Counters

variable {counters : Counters} {name other : Text}

def count (counters : Counters) (name : Text) : Nat := (counters.get? (enclosing name)).getD 0

def after (counters : Counters) (names : List Text) : Counters :=
  names.foldl (fun counters name => (counters.number name).2) counters

/-- The names with their numbers, given in turn. -/
def numberAll (counters : Counters) : List Text → List Text
  | [] => []
  | name :: names => (counters.number name).1 :: numberAll (counters.number name).2 names

theorem number_fst (counters : Counters) (name : Text) :
    (counters.number name).1 = Name.numbered name (counters.count name) := rfl

theorem count_empty (name : Text) : count .empty name = 0 := rfl

theorem count_number (counters : Counters) (name other : Text) :
    (counters.number name).2.count other =
      counters.count other + if enclosing name = enclosing other then 1 else 0 := by
  have step : (counters.number name).2 =
      counters.insert (enclosing name) (counters.count name + 1) := rfl
  rw [step, count, OrderedMap.get?_insert]
  by_cases same : enclosing other = enclosing name
  · simp [count, same]
  · simp [count, same, Ne.symm same]

/-- The count goes up by the names that are counted with it. -/
theorem count_after (counters : Counters) (names : List Text) (name : Text) :
    (counters.after names).count name =
      counters.count name + names.countP fun other => enclosing other = enclosing name := by
  induction names generalizing counters with
  | nil => rfl
  | cons first names ih =>
    have step : counters.after (first :: names) = (counters.number first).2.after names := rfl
    rw [step, ih, count_number, List.countP_cons]
    simp only [decide_eq_true_eq]
    omega

theorem numberAll_append (counters : Counters) (names others : List Text) :
    counters.numberAll (names ++ others) =
      counters.numberAll names ++ (counters.after names).numberAll others := by
  induction names generalizing counters with
  | nil => rfl
  | cons first names ih =>
    have step : counters.after (first :: names) = (counters.number first).2.after names := rfl
    rw [List.cons_append, numberAll, ih, numberAll, step, List.cons_append]

/-- No number is below the count. -/
theorem exists_of_mem_numberAll {names : List Text} {stored : Text}
    (h : stored ∈ counters.numberAll names) :
    ∃ name ∈ names, ∃ n, stored = Name.numbered name n ∧ counters.count name ≤ n := by
  induction names generalizing counters with
  | nil => cases h
  | cons first names ih =>
    rcases List.mem_cons.1 h with rfl | h
    · exact ⟨first, by simp, counters.count first, rfl, Nat.le_refl _⟩
    · obtain ⟨name, hn, n, rfl, hc⟩ := ih h
      rw [count_number] at hc
      exact ⟨name, by simp [hn], n, rfl, by omega⟩

/-- Names that are numbered in turn are stored in different places. -/
theorem nodup_paths (counters : Counters) {names : List Text}
    (h : ∀ name ∈ names, Name.Traceless name) :
    ((counters.numberAll names).map Name.path).Nodup := by
  induction names generalizing counters with
  | nil => exact List.nodup_nil
  | cons first names ih =>
    have rest := ih (counters.number first).2 fun name hn => h name (List.mem_cons_of_mem _ hn)
    refine List.nodup_cons.2 ⟨?_, rest⟩
    intro taken
    obtain ⟨stored, hs, same⟩ := List.mem_map.1 taken
    obtain ⟨name, hn, n, rfl, hc⟩ := exists_of_mem_numberAll hs
    rw [number_fst] at same
    obtain ⟨scopes, -, rfl⟩ := (Name.path_numbered_eq_iff (h name (List.mem_cons_of_mem _ hn))
      (h first List.mem_cons_self)).1 same
    -- The name comes after one of its scope, so its number is higher.
    have higher : counters.count name = counters.count first := by rw [count, scopes, count]
    rw [count_number, if_pos scopes.symm] at hc
    omega

/-- The number is the count of those stored in the same scope before. -/
theorem count_after_eq_countP (counters : Counters) {earlier : List Text} {name : Text}
    (h : ∀ other ∈ earlier, Name.Traceless other) (hn : Name.Traceless name) (n : Nat) :
    (counters.after earlier).count name = counters.count name +
      (counters.numberAll earlier).countP fun stored =>
        Name.scopeOf stored = Name.scopeOf (Name.numbered name n) := by
  induction earlier generalizing counters with
  | nil => rfl
  | cons first earlier ih =>
    have step : counters.after (first :: earlier) = (counters.number first).2.after earlier := rfl
    have others : ∀ other ∈ earlier, Name.Traceless other := fun other ho =>
      h other (List.mem_cons_of_mem _ ho)
    have scopes := Name.scopeOf_numbered_eq_iff (h first List.mem_cons_self) hn
      (counters.count first) n
    rw [step, ih _ others, count_number, numberAll, List.countP_cons, number_fst]
    simp only [decide_eq_true_eq, scopes]
    omega

end Counters

namespace Reader

/-! ## Literals one after the other -/

/-- Passes lines to a reader one after the other, recognised or not. -/
def feed? (reader : Reader) (number : Nat) : List Text → Scope → Option (Reader × Scope)
  | [], s => some (reader, s)
  | line :: lines, s =>
    let outcome := reader.line number line s
    match outcome.result with
    | .error _ => none
    | .ok _ => outcome.state.feed? (number + 1) lines outcome.scope

def literalNames (lines : List Text) : List Text :=
  lines.filterMap fun line => (Line.literal? line).map (·.1)

variable {counters : Counters} {number : Nat} {lines : List Text} {s s' : Scope}
variable {reader : Reader}

/-- A line without a literal is passed over, a literal is stored under its name and number. -/
theorem feed_literals_cons {line : Text}
    (h : (literals counters).feed? number (line :: lines) s = some (reader, s')) :
    (Line.literal? line = none ∧
        (literals counters).feed? (number + 1) lines s = some (reader, s')) ∨
      ∃ name raw t, Line.literal? line = some (name, raw) ∧
        s.assign (counters.number name).1 (.value (Literal.decodeIn s raw)) = (t, .ok ()) ∧
        (literals (counters.number name).2).feed? (number + 1) lines t = some (reader, s') := by
  simp only [feed?, Reader.line, lineLiterals_eq, storedItem_state] at h
  cases hl : Line.literal? line with
  | none =>
    have item : literalItem? counters line s = none := literalItem?_eq_none hl
    have same : literalCounters counters line = counters := by rw [literalCounters, hl]
    rw [item, same] at h
    exact .inl ⟨rfl, h⟩
  | some found =>
    obtain ⟨name, raw⟩ := found
    have item : literalItem? counters line s =
        some ((counters.number name).1, .value (Literal.decodeIn s raw)) := by
      rw [literalItem?, hl]
      rfl
    have next : literalCounters counters line = (counters.number name).2 := by
      rw [literalCounters, hl]
    rw [item, next] at h
    cases ha : s.assign (counters.number name).1 (.value (Literal.decodeIn s raw)) with
    | mk t result =>
      cases result with
      | error failure =>
        simp only [storedItem, stored, ha] at h
        cases h
      | ok _ =>
        rw [storedItem_of_ok ha] at h
        exact .inr ⟨name, raw, t, rfl, ha, h⟩

theorem feed_append {others : List Text} :
    reader.feed? number (lines ++ others) s =
      (reader.feed? number lines s).bind fun (state, t) =>
        state.feed? (number + lines.length) others t := by
  induction lines generalizing reader number s with
  | nil => rfl
  | cons line lines ih =>
    rw [List.cons_append, feed?, feed?]
    cases (reader.line number line s).result with
    | error error => rfl
    | ok recognized =>
      have count : number + (line :: lines).length = number + 1 + lines.length := by
        simp only [List.length_cons]
        omega
      simp only [ih, count]

/-- The counts afterwards. -/
theorem feed_literals_counters
    (h : (literals counters).feed? number lines s = some (reader, s')) :
    reader = literals (counters.after (literalNames lines)) := by
  induction lines generalizing counters number s with
  | nil =>
    cases h
    rfl
  | cons line lines ih =>
    rcases feed_literals_cons h with ⟨hl, h⟩ | ⟨name, raw, t, hl, -, h⟩
    · rw [ih h]
      simp [literalNames, hl]
    · rw [ih h]
      simp [literalNames, hl, Counters.after]

/-- A numbered name is no enumerator's. -/
theorem parentEnumeration?_of_numbered {name : Text} {entry : Entry} {n : Nat}
    (traceless : Name.Traceless name)
    (h : s.assign (Name.numbered name n) entry = (s', .ok ())) :
    Scope.parentEnumeration? (Name.path (Name.numbered name n)) s = none := by
  cases hp : Scope.parentEnumeration? (Name.path (Name.numbered name n)) s with
  | none => rfl
  | some e =>
    obtain ⟨value, integral⟩ := (Scope.assigned_path h).integral hp
    have last : (Name.path (Name.numbered name n)).getLast? =
        some (Name.numbered (Name.withoutMarkers (Name.splitLast name).2) n) := by
      rw [Name.path_numbered traceless, List.getLast?_concat]
    have invalid :
        Name.isIdentifier (Name.numbered (Name.withoutMarkers (Name.splitLast name).2) n) =
          false := by
      refine Bool.eq_false_iff.2 fun valid => ?_
      have tick : Name.continuesIdentifier '\x60' = false := by decide
      exact Name.not_mem_of_isIdentifier valid tick (by simp [Name.numbered])
    have refused : (s.assign (Name.numbered name n) entry).2 =
        .error (.enumeration (.invalidName _)) :=
      Scope.assignAt_error_iff.2 (.invalidName hp integral last invalid)
    rw [h] at refused
    cases refused

/-- Later literals leave a value in its place unless one of them is stored there or around
it. -/
theorem valueAt?_feed {place : List Text} {value : Value}
    (h : (literals counters).feed? number lines s = some (reader, s'))
    (apart : ∀ stored ∈ counters.numberAll (literalNames lines), Name.path stored ≠ place) :
    Scope.valueAt? place s' = some value ↔ Scope.valueAt? place s = some value ∧
      ∀ stored ∈ counters.numberAll (literalNames lines), ¬ Name.path stored <+: place := by
  induction lines generalizing counters number s with
  | nil =>
    cases h
    simp [literalNames, Counters.numberAll]
  | cons line lines ih =>
    rcases feed_literals_cons h with ⟨hl, h⟩ | ⟨name, raw, t, hl, step, h⟩
    · have names : literalNames (line :: lines) = literalNames lines := by
        simp [literalNames, hl]
      rw [names] at apart ⊢
      exact ih h apart
    · have names : counters.numberAll (literalNames (line :: lines)) =
          (counters.number name).1 ::
            (counters.number name).2.numberAll (literalNames lines) := by
        simp [literalNames, hl, Counters.numberAll]
      rw [names] at apart ⊢
      obtain ⟨here, others⟩ := List.forall_mem_cons.1 apart
      rw [ih h others, List.forall_mem_cons]
      have assigned := Scope.assigned_path step
      by_cases around : Name.path (counters.number name).1 <+: place
      · rw [assigned.valueAt?_within around here]
        simp [around]
      · rw [assigned.valueAt?_elsewhere around]
        simp [around]

/-- The names under which a reader that starts without counts stores the literals of lines. -/
def storedNames (lines : List Text) : List Text := Counters.numberAll .empty (literalNames lines)

/-- After a reset, the literals are stored in different places, each under the count of those
stored in its scope before, however the scope is spelled. A literal stays unless a later one
is stored around it. -/
theorem feed_literals_places
    (run : (literals counters).reset.feed? number lines s = some (reader, s'))
    (traceless : ∀ name ∈ literalNames lines, Name.Traceless name) :
    ((storedNames lines).map Name.path).Nodup ∧
    ∀ before line after name raw, lines = before ++ line :: after →
      Line.literal? line = some (name, raw) →
      ∃ count later state t t',
        storedNames lines = storedNames before ++ Name.numbered name count :: later ∧
        count = (storedNames before).countP (fun stored =>
          Name.scopeOf stored = Name.scopeOf (Name.numbered name count)) ∧
        (literals counters).reset.feed? number before s = some (state, t) ∧
        t.assign (Name.numbered name count) (.value (Literal.decodeIn t raw)) = (t', .ok ()) ∧
        (s'.value? (Name.numbered name count) = some (Literal.decodeIn t raw) ↔
          ∀ stored ∈ later, ¬ Name.path stored <+: Name.path (Name.numbered name count)) := by
  have distinct := Counters.nodup_paths .empty traceless
  refine ⟨distinct, ?_⟩
  rintro before line after name raw rfl literal
  rw [show (literals counters).reset = literals .empty from rfl] at run ⊢
  rw [feed_append] at run
  obtain ⟨⟨state, t⟩, first, run⟩ := Option.bind_eq_some_iff.1 run
  obtain rfl := feed_literals_counters first
  rcases feed_literals_cons run with ⟨none_here, -⟩ | ⟨_, _, t', same, step, rest⟩
  · rw [literal] at none_here
    cases none_here
  obtain ⟨rfl, rfl⟩ := Prod.mk.inj (Option.some.inj (literal.symm.trans same))
  rw [Counters.number_fst] at step
  -- What is stored before this literal, and what after it.
  have names : literalNames (before ++ line :: after) =
      literalNames before ++ name :: literalNames after := by
    simp [literalNames, literal]
  rw [names] at traceless distinct
  have here := traceless name (by simp)
  have earlier : ∀ other ∈ literalNames before, Name.Traceless other := fun other ho =>
    traceless other (List.mem_append_left _ ho)
  have stored := Counters.numberAll_append .empty (literalNames before)
    (name :: literalNames after)
  rw [← names, Counters.numberAll, Counters.number_fst] at stored
  refine ⟨_, _, _, t, t', stored, ?_, first, step, ?_⟩
  · have total := Counters.count_after_eq_countP .empty earlier here
      ((Counters.after .empty (literalNames before)).count name)
    rw [Counters.count_empty, Nat.zero_add] at total
    exact total
  · rw [← names, stored, List.map_append, List.map_cons] at distinct
    have apart := (List.nodup_cons.1 (List.nodup_append.1 distinct).2.1).1
    rw [Scope.value?_eq, valueAt?_feed rest]
    · have found := (Scope.assigned_path step).valueAt?_self
        (parentEnumeration?_of_numbered here step)
      rw [found]
      simp
    · intro other ho same_place
      exact apart (List.mem_map.2 ⟨other, ho, same_place⟩)

/-- Literals of one scope under two spellings, and one of another scope. -/
def spelledLines : List Text :=
  ["# literal ::ns::(literal) = 1".toList, "#pragma once".toList,
    "#literal ns::(anonymous namespace)::(literal):=2".toList,
    "# literal f<(anonymous namespace)::T>::(literal) = 3".toList]

theorem feed_literals_places_spelled :
    ∃ reader s', (literals .empty).reset.feed? 1 spelledLines .empty = some (reader, s') ∧
      (∀ name ∈ literalNames spelledLines, Name.Traceless name) ∧
      ((storedNames spelledLines).map Name.path).Nodup ∧
      s'.value? (Name.numbered "::ns::(literal)".toList 0) = some (.int 1) := by
  have recognised : ((literals .empty).reset.feed? 1 spelledLines .empty).isSome = true := by
    decide +kernel
  obtain ⟨⟨reader, s'⟩, run⟩ := Option.isSome_iff_exists.1 recognised
  have traceless : ∀ name ∈ literalNames spelledLines, Name.Traceless name := by decide +kernel
  obtain ⟨distinct, places⟩ := feed_literals_places run traceless
  refine ⟨reader, s', run, traceless, distinct, ?_⟩
  obtain ⟨count, later, state, t, t', names, number, before, step, stays⟩ := places []
    "# literal ::ns::(literal) = 1".toList spelledLines.tail "::ns::(literal)".toList
    "1".toList rfl (by decide +kernel)
  obtain rfl : count = 0 := number
  obtain rfl : later = (storedNames spelledLines).tail := (congrArg List.tail names).symm
  have decoded : Literal.decodeIn t "1".toList = .int 1 := by
    rw [Literal.decodeIn, Literal.decode_eq]
    rfl
  rw [decoded] at stays
  exact stays.2 (by decide +kernel)

/-- A marker that ends a scope's name goes when the literal is stored, but not when it is
counted: the second literal takes the place of the first one. -/
theorem feed_literals_replaces :
    let lines := ["# literal x(anonymous namespace)::(literal) = 1".toList,
      "# literal x(literal) = 2".toList]
    ((literals .empty).reset.feed? 1 lines .empty).map (·.2) =
        some (.ofList [("x(literal)\x600".toList, .value (.int 2))]) ∧
      ¬ ((storedNames lines).map Name.path).Nodup := by
  decide +kernel

end Reader

end ConstantDump
