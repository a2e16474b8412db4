import ConstantDump.Proofs.Reader.Standard
import ConstantDump.Proofs.Scope.Enumeration

/-!
The open enumeration in the scope. Its enumerators are added one by one, and the constants
reader stores the same lines a second time. Main statement: the enumeration is in the scope,
with all enumerators of its lines, just as long as none of these lines has a constant under
its own name, or under the name of something around it.
-/

namespace ConstantDump.Reader

/-! ## The lines of the open enumeration -/

/-- The lines of the open enumeration after one line more, the one that opened it first. -/
def blockAfter (block : Option (List Text)) (line : Text) : Option (List Text) :=
  match block with
  | none => if (Line.enumOpening? line).isSome then some [line] else none
  | some lines => if Line.closesEnum line then none else some (lines ++ [line])

/-- The lines of the enumeration that is open after all the lines, if one is. -/
def openBlock (lines : List Text) : Option (List Text) := lines.foldl blockAfter none

theorem openBlock_concat (lines : List Text) (line : Text) :
    openBlock (lines ++ [line]) = blockAfter (openBlock lines) line := by
  simp [openBlock, List.foldl_append]

def enumeratorOf? (line : Text) : Option Text :=
  if (Line.enumOpening? line).isSome then none
  else (Line.constant? line).map fun (name, _) => (Name.splitLast name).2

/-- No line has a constant under the name, or under the name of something around it. -/
def Spares (lines : List Text) (name : Text) : Prop :=
  ∀ line ∈ lines, ∀ constant raw, Line.constant? line = some (constant, raw) →
    ¬ Name.path constant <+: Name.path name

instance (lines : List Text) (name : Text) : Decidable (Spares lines name) :=
  decidable_of_iff (∀ line ∈ lines, ∀ found ∈ Line.constant? line,
    ¬ Name.path found.1 <+: Name.path name) (by simp [Spares, Prod.forall])

theorem spares_concat {lines : List Text} {line name : Text} :
    Spares (lines ++ [line]) name ↔ Spares lines name ∧ Spares [line] name := by
  simp only [Spares, List.mem_append, List.mem_singleton, or_imp, forall_and]

def standardOpened? : Reader → Option Text
  | .group _ [_, .enums opened _, _, _] => opened
  | _ => none

/-! ## The invariant -/

/-- The enumeration is there and has the enumerators, or nothing is there where it has not
been spared. -/
inductive Kept (name : Text) (spared : Prop) (enumerators : List Text) (s : Scope) : Prop
  | there (e : Enumeration) (holds : spared) (found : s.enumeration? name = some e)
      (members : ∀ enumerator ∈ enumerators, e.containsName enumerator = true)
  | gone (fails : ¬ spared) (missing : s.enumeration? name = none)

def BlockKept : Option Text → Option (List Text) → Scope → Prop
  | none, none, _ => True
  | some name, some block, s =>
    Kept name (Spares block name) (block.filterMap enumeratorOf?) s
  | _, _, _ => False

theorem BlockKept.of_open {name : Text} {block : Option (List Text)} {s : Scope}
    (h : BlockKept (some name) block s) :
    ∃ lines, block = some lines ∧
      Kept name (Spares lines name) (lines.filterMap enumeratorOf?) s := by
  cases block with
  | none => exact h.elim
  | some lines => exact ⟨lines, rfl, h⟩

theorem BlockKept.of_closed {block : Option (List Text)} {s : Scope}
    (h : BlockKept none block s) : block = none := by
  cases block with
  | none => rfl
  | some lines => exact h.elim

/-- A constant elsewhere leaves the enumeration; one at its name or around it ends it. -/
theorem Kept.constant {name line : Text} {lines enumerators : List Text} {s s' : Scope}
    (h : Kept name (Spares lines name) enumerators s)
    (step : Stored (constantItem? line s) s s') :
    Kept name (Spares (lines ++ [line]) name) enumerators s' := by
  cases hc : Line.constant? line with
  | none =>
    have spared : Spares [line] name := by simp [Spares, hc]
    have same : s' = s := by
      rw [constantItem?, hc] at step
      exact step.eq_of_none
    rw [same]
    rcases h with ⟨e, holds, found, members⟩ | ⟨fails, missing⟩
    · exact .there e (spares_concat.2 ⟨holds, spared⟩) found members
    · exact .gone (fun hs => fails (spares_concat.1 hs).1) missing
  | some found =>
    obtain ⟨constant, raw⟩ := found
    rw [constantItem?, hc] at step
    cases step with
    | assigned step =>
      have assigned := Scope.assigned_path step
      by_cases hp : Name.path constant <+: Name.path name
      · refine .gone (fun hs => ?_) (assigned.enumerationAt?_of_prefix hp)
        exact (spares_concat.1 hs).2 line (List.mem_singleton_self line) constant raw hc hp
      · have spared : Spares [line] name := by
          intro line' hl constant' raw' hc'
          rw [List.mem_singleton.1 hl, hc] at hc'
          cases hc'
          exact hp
        have kept := assigned.enumerationAt?_of_not_prefix hp
        simp only [← Scope.enumeration?_eq] at kept
        rcases h with ⟨e, holds, found, members⟩ | ⟨fails, missing⟩
        · have spares := spares_concat.2 ⟨holds, spared⟩
          rcases kept with same | ⟨e₀, e', enumerator, value, before, added, after⟩
          · exact .there e spares (same.trans found) members
          · obtain rfl : e₀ = e := Option.some.inj (before.symm.trans found)
            refine .there e' spares after fun other ho => ?_
            exact Enumeration.containsName_of_insert added (members other ho)
        · refine .gone (fun hs => fails (spares_concat.1 hs).1) ?_
          rcases kept with same | ⟨e₀, e', enumerator, value, before, added, after⟩
          · exact same.trans missing
          · rw [missing] at before
            cases before

/-- A new enumeration is there, without enumerators. -/
theorem kept_of_opening {name stored line : Text} {e : Enumeration} {s s' : Scope}
    (opening : Line.enumOpening? line = some name)
    (step : s.assign stored (.enumeration e) = (s', .ok ())) :
    Kept stored (Spares [] stored) ([line].filterMap enumeratorOf?) s' := by
  refine .there e (by simp [Spares]) (Scope.enumeration?_assign step) ?_
  simp [enumeratorOf?, opening]

/-- A line without an enumerator of its own changes nothing before the constants reader. -/
theorem Kept.concat {name line : Text} {lines : List Text} {spared : Prop} {s : Scope}
    (h : Kept name spared (lines.filterMap enumeratorOf?) s) (hn : enumeratorOf? line = none) :
    Kept name spared ((lines ++ [line]).filterMap enumeratorOf?) s := by
  simpa [List.filterMap_append, hn] using h

/-- An enumerator is added where the enumeration is there; it is refused otherwise. -/
theorem Kept.adds {opened line name raw : Text} {lines : List Text} {spared : Prop} {value : Int}
    {s s' : Scope} (h : Kept opened spared (lines.filterMap enumeratorOf?) s)
    (opening : Line.enumOpening? line = none) (constant : Line.constant? line = some (name, raw))
    (step : s.addEnumerator? opened (Name.splitLast name).2 value = some (.ok s')) :
    Kept opened spared ((lines ++ [line]).filterMap enumeratorOf?) s' := by
  obtain ⟨e, e', before, added, after⟩ := Scope.enumeration?_addEnumerator step
  rcases h with ⟨e₀, holds, found, members⟩ | ⟨fails, missing⟩
  · obtain rfl : e₀ = e := Option.some.inj (found.symm.trans before)
    refine .there e' holds after fun other ho => ?_
    have here : enumeratorOf? line = some (Name.splitLast name).2 := by
      simp [enumeratorOf?, opening, constant]
    rw [List.filterMap_append, List.mem_append] at ho
    rcases ho with earlier | now
    · exact Enumeration.containsName_of_insert added (members other earlier)
    · simp only [List.filterMap_cons, here, List.filterMap_nil, List.mem_singleton] at now
      rw [now]
      exact Enumeration.containsName_insert added
  · rw [missing] at before
    cases before

/-! ## Lines and runs -/

/-- Every line that is read keeps what the scope has of the open enumeration. -/
theorem blockKept_line {config : Config} {opened : Option Text} {anonymous literals : Counters}
    {block : Option (List Text)} {number : Nat} {line : Text} {s : Scope} {accepted : Bool}
    (kept : BlockKept opened block s)
    (h : ((standardWith config opened anonymous literals).line number line s).result =
      .ok accepted) :
    ∃ opened' anonymous' literals',
      ((standardWith config opened anonymous literals).line number line s).state =
        standardWith config opened' anonymous' literals' ∧
      BlockKept opened' (blockAfter block line)
        ((standardWith config opened anonymous literals).line number line s).scope := by
  obtain ⟨opened', anonymous', s₁, s₂, s₃, records, enums, constants, lits, state⟩ :=
    line_standardWith_ok h
  refine ⟨opened', anonymous', _, state, ?_⟩
  -- While an enumeration is open, only enumerators and constants change the scope.
  have only (hr : Line.record? line = none) (hl : Line.literal? line = none) : s₁ = s ∧
      ((standardWith config opened anonymous literals).line number line s).scope = s₃ := by
    rw [recordItem?_eq_none hr] at records
    rw [literalItem?_eq_none hl] at lits
    exact ⟨records.eq_of_none, lits.eq_of_none⟩
  cases enums with
  | outside opening =>
    rw [kept.of_closed]
    simp [blockAfter, opening, BlockKept]
  | closes closing =>
    obtain ⟨lines, rfl, -⟩ := kept.of_open
    simp [blockAfter, closing, BlockKept]
  | opens opening step =>
    obtain ⟨-, last⟩ := only (Line.record?_of_enumOpening? opening)
      (Line.literal?_of_enumOpening? opening)
    rw [kept.of_closed, last]
    simp only [blockAfter, opening, Option.isSome_some, ↓reduceIte]
    exact (kept_of_opening opening step).constant constants
  | nested opening =>
    obtain ⟨lines, rfl, kept⟩ := kept.of_open
    obtain ⟨rfl, last⟩ := only (Line.record?_of_enumOpening? opening)
      (Line.literal?_of_enumOpening? opening)
    have none_here : enumeratorOf? line = none := by simp [enumeratorOf?, opening]
    rw [last, blockAfter, Line.closesEnum_of_enumOpening? opening]
    exact (kept.concat none_here).constant constants
  | blank opening closing blank =>
    obtain ⟨lines, rfl, kept⟩ := kept.of_open
    obtain ⟨rfl, last⟩ := only (Line.record?_of_isAllBlank blank)
      (Line.literal?_of_isAllBlank blank)
    have none_here : enumeratorOf? line = none := by
      simp [enumeratorOf?, Line.constant?_of_isAllBlank blank]
    rw [last, blockAfter, closing]
    exact (kept.concat none_here).constant constants
  | adds opening closing constant integral step =>
    obtain ⟨lines, rfl, kept⟩ := kept.of_open
    obtain ⟨rfl, last⟩ := only (Line.record?_of_constant? constant)
      (Line.literal?_of_constant? constant)
    rw [last, blockAfter, closing]
    exact (kept.adds opening constant step).constant constants

/-- Every run of the standard reader keeps it. -/
theorem blockKept_readLines {config : Config} {number : Nat} {lines : List Text} {s s' : Scope}
    {reader : Reader} (h : (standard config).readLines number lines s = ⟨reader, s', .ok ()⟩) :
    ∃ opened anonymous literals, reader = standardWith config opened anonymous literals ∧
      BlockKept opened (openBlock lines) s' := by
  refine readLines_ok [] (P := fun done reader s => ∃ opened anonymous literals,
    reader = standardWith config opened anonymous literals ∧
      BlockKept opened (openBlock done) s) ?_ ⟨none, .empty, .empty, rfl, trivial⟩ h
  rintro done reader number line s ⟨opened, anonymous, literals, rfl, kept⟩ accepted
  rw [openBlock_concat]
  exact blockKept_line kept accepted

/-- After any lines that the standard reader accepts, an enumeration is open just when the
lines have one open; and it is in the scope with all its enumerators just when none of its
lines has a constant under its name or around it. -/
theorem open_enumeration_kept_iff {config : Config} {number : Nat} {lines : List Text}
    {s : Scope} {outcome : DumpOutcome}
    (run : (standard config).readLines number lines s = outcome) (ok : outcome.result = .ok ()) :
    (standardOpened? outcome.reader).isSome = (openBlock lines).isSome ∧
    ∀ name block, standardOpened? outcome.reader = some name → openBlock lines = some block →
      ((∃ e, outcome.scope.enumeration? name = some e ∧
          ∀ enumerator ∈ block.filterMap enumeratorOf?, e.containsName enumerator = true) ↔
        Spares block name) := by
  obtain ⟨reader, s', result⟩ := outcome
  obtain rfl : result = .ok () := ok
  obtain ⟨opened, anonymous, literals, rfl, kept⟩ := blockKept_readLines run
  change opened.isSome = (openBlock lines).isSome ∧ ∀ name block, opened = some name → _
  cases opened with
  | none =>
    rw [kept.of_closed]
    exact ⟨rfl, fun _ _ hn => nomatch hn⟩
  | some name =>
    obtain ⟨block, hb, kept⟩ := kept.of_open
    rw [hb]
    refine ⟨rfl, ?_⟩
    rintro _ _ ⟨⟩ ⟨⟩
    rcases kept with ⟨e, holds, found, members⟩ | ⟨fails, missing⟩
    · constructor
      · intro _
        exact holds
      · intro _
        exact ⟨e, found, members⟩
    · constructor
      · rintro ⟨e, found, -⟩
        rw [missing] at found
        cases found
      · intro holds
        exact absurd holds fails

def colorLines : List Text :=
  ["enum Color \x7b".toList, "  RED = 0,".toList, "".toList, "  GREEN = 1,".toList]

theorem open_enumeration_kept_color :
    ((standard .default).readLines 1 colorLines .empty).result = .ok () ∧
    ∃ e, ((standard .default).readLines 1 colorLines .empty).scope.enumeration? "Color".toList =
        some e ∧
      ∀ enumerator ∈ ["RED".toList, "GREEN".toList], e.containsName enumerator = true := by
  have ok : ((standard .default).readLines 1 colorLines .empty).result = .ok () :=
    ok_of_isOk (by decide +kernel)
  obtain ⟨-, kept⟩ := open_enumeration_kept_iff rfl ok
  have opened : standardOpened? ((standard .default).readLines 1 colorLines .empty).reader =
      some "Color".toList := by decide +kernel
  have block : openBlock colorLines = some colorLines := by decide +kernel
  have spares : Spares colorLines "Color".toList := by decide +kernel
  obtain ⟨e, found, members⟩ := (kept _ _ opened block).2 spares
  have enumerators : colorLines.filterMap enumeratorOf? = ["RED".toList, "GREEN".toList] := by
    decide +kernel
  rw [enumerators] at members
  exact ⟨ok, e, found, members⟩

/-- An enumerator with the name of its enumeration: the enumeration is open, but it is not
in the scope any more. -/
theorem open_enumeration_not_kept :
    let outcome := (standard .default).readLines 1 ["enum foo \x7b".toList, "foo = 1".toList] .empty
    outcome.result.isOk = true ∧ standardOpened? outcome.reader = some "foo".toList ∧
      outcome.scope.enumeration? "foo".toList = none := by
  decide +kernel

end ConstantDump.Reader
