import ConstantDump.Proofs.Line.Kinds
import ConstantDump.Proofs.Reader.Line
import ConstantDump.Proofs.Scope.Store
import ConstantDump.Reader.Single
import ConstantDump.Scope.Equality

/-!
Lines that are read alone, against the same lines read into an empty scope.

* `takes_or_declines`: a reader of constants, records or literals does with a line what it does
  with the line alone;
* `pairwise_declines`: at most one of these readers has something to do with a line;
* `single_agrees`: both ways agree, for each of the readers, and for all of them in a group where
  its configuration does not accept what they decline;
* `single_disagrees`: where it does, a group accepts a line with nothing in it.
-/

namespace ConstantDump

/-- With no record in the scope, calls are those of the character types. -/
theorem Types.inScope_empty : Types.inScope .empty = Types.characters := by
  funext name
  simp [inScope, layered, records, Scope.record?, Scope.stored?, Scope.lookup?]

theorem Literal.decodeIn_empty (raw : Text) :
    decodeIn .empty raw = decode Types.characters raw := by
  rw [decodeIn, Types.inScope_empty]

/-- In an empty scope everything can be stored, and is found there. -/
theorem Scope.exists_assign_empty (name : Text) (entry : Entry) :
    ∃ s, Scope.assign .empty name entry = (s, .ok ()) ∧ s.lookup name = .ok (.entry entry) := by
  rcases step : Scope.assign .empty name entry with ⟨s, result⟩
  obtain rfl : result = .ok () := by
    rw [← assignAt_empty name entry (Name.path name), ← assign, step]
  have outside : parentEnumeration? (Name.path name) .empty = none := by
    simp [parentEnumeration?, enumerationAt?]
  have found := (assigned_path step).find?_self
  rw [outside] at found
  exact ⟨s, rfl, lookup_eq_ok_iff.2 found⟩

namespace Reader

variable {reader : Reader} {number : Nat} {text : Text}

/-- A reader finds one thing in a line. Into an empty scope it stores the same thing, and it is the
same reader afterwards. -/
def Takes (reader : Reader) (number : Nat) (text : Text) : Prop :=
  ∃ state name entry s, reader.single text = (state, .ok (name, entry)) ∧
    reader.line number text .empty = ⟨state, s, .ok true⟩ ∧ s.lookup name = .ok (.entry entry)

/-- A line means nothing to a reader, alone or in a dump. -/
def Declines (reader : Reader) (text : Text) : Prop :=
  reader.single text = (reader, .error (.noSingleItem text)) ∧
    ∀ number s, reader.line number text s = declined reader s

/-! ## Constants, records and literals -/

theorem declines_constants (h : Line.constant? text = none) : Declines .constants text := by
  refine ⟨by rw [single, h], fun number s => ?_⟩
  rw [line, lineConstants_eq, constantItem?_eq_none h, storedItem]

theorem declines_records (h : Line.record? text = none) : Declines .records text := by
  refine ⟨by rw [single, h], fun number s => ?_⟩
  rw [line, lineRecords_eq, recordItem?_eq_none h, storedItem]

theorem declines_literals (counters : Counters) (h : Line.literal? text = none) :
    Declines (.literals counters) text := by
  refine ⟨by rw [single, h], fun number s => ?_⟩
  rw [line, lineLiterals_eq, literalItem?_eq_none h, storedItem, literalCounters, h]

/-- What is the same item on both ways is stored and found. -/
theorem takes_of_item {state : Reader} {name : Text} {entry : Entry}
    (alone : reader.single text = (state, .ok (name, entry)))
    (inside : reader.line number text .empty =
      storedItem state .empty number (some (name, entry))) : Takes reader number text := by
  obtain ⟨s, stored, found⟩ := Scope.exists_assign_empty name entry
  rw [storedItem_of_ok stored] at inside
  exact ⟨state, name, entry, s, alone, inside, found⟩

/-- The readers that can read a line alone, in any state. -/
def itemReaders (counters : Counters) : List Reader := [.constants, .records, .literals counters]

theorem takes_or_declines {counters : Counters} (h : reader ∈ itemReaders counters) (number : Nat)
    (text : Text) : Takes reader number text ∨ Declines reader text := by
  simp only [itemReaders, List.mem_cons, List.not_mem_nil, or_false] at h
  rcases h with rfl | rfl | rfl
  · cases kind : Line.constant? text with
    | none => exact .inr (declines_constants kind)
    | some found =>
      obtain ⟨name, raw⟩ := found
      have item : constantItem? text .empty = some (valueItem name raw) := by
        simp [constantItem?, kind, valueItem, Literal.decodeIn_empty]
      refine .inl (takes_of_item (by rw [single, kind]) ?_)
      rw [line, lineConstants_eq, item]
  · cases kind : Line.record? text with
    | none => exact .inr (declines_records kind)
    | some found =>
      obtain ⟨name, fields⟩ := found
      have item : recordItem? text .empty =
          some (name, .record (.ofFieldList name fields) .empty) := by
        simp [recordItem?, kind, Scope.members?, Scope.stored?, Scope.lookup?]
      refine .inl (takes_of_item (by rw [single, kind]) ?_)
      rw [line, lineRecords_eq, item]
  · cases kind : Line.literal? text with
    | none => exact .inr (declines_literals counters kind)
    | some found =>
      obtain ⟨name, raw⟩ := found
      have item : literalItem? counters text .empty =
          some (valueItem (counters.number name).1 raw) := by
        simp [literalItem?, kind, valueItem, Literal.decodeIn_empty]
      refine .inl (takes_of_item (by rw [single, kind]) ?_)
      rw [line, lineLiterals_eq, item, literalCounters, kind]

/-- At most one of the readers has something to do with a line, since the kinds of lines exclude
one another. -/
theorem pairwise_declines (counters : Counters) (text : Text) :
    (itemReaders counters).Pairwise fun one other => Declines one text ∨ Declines other text := by
  have records_or_literals : Declines .records text ∨ Declines (.literals counters) text := by
    cases kind : Line.record? text with
    | none => exact .inl (declines_records kind)
    | some found =>
      refine .inr (declines_literals counters (Option.eq_none_iff_forall_ne_some.2 ?_))
      intro other literal
      rw [Line.record?_of_literal? literal] at kind
      cases kind
  have constants_or_others : Declines .constants text ∨
      Declines .records text ∧ Declines (.literals counters) text := by
    cases kind : Line.constant? text with
    | none => exact .inl (declines_constants kind)
    | some found =>
      exact .inr ⟨declines_records (Line.record?_of_constant? kind),
        declines_literals counters (Line.literal?_of_constant? kind)⟩
  rw [or_and_left] at constants_or_others
  simp [itemReaders, constants_or_others, records_or_literals]

/-! ## Groups -/

theorem lineAll_cons_of_declines (h : Declines reader text) (rest : List Reader) (number : Nat)
    (s : Scope) :
    lineAll (reader :: rest) number text s =
      ⟨reader :: (lineAll rest number text s).state, (lineAll rest number text s).scope,
        (lineAll rest number text s).result⟩ := by
  have skipped : reader.line number text s = declined reader s := h.2 number s
  have ok : (reader.line number text s).result = .ok false := by rw [skipped, declined]
  rw [lineAll_cons_of_ok ok, skipped, declined]
  cases (lineAll rest number text s).result <;> rfl

theorem singleFirst_cons_of_declines (h : Declines reader text) (rest : List Reader) :
    singleFirst (reader :: rest) text =
      (reader :: (singleFirst rest text).1, (singleFirst rest text).2) := by
  rw [singleFirst, h.1]

/-- A line that every member declines changes nothing, and has nothing in it. -/
theorem all_of_declines {members : List Reader} (h : ∀ member ∈ members, Declines member text) :
    (∀ number s, lineAll members number text s = declined members s) ∧
      singleFirst members text = (members, none) := by
  induction members with
  | nil => exact ⟨fun number s => by rw [lineAll], by rw [singleFirst]⟩
  | cons member rest ih =>
    obtain ⟨here, later⟩ := List.forall_mem_cons.1 h
    obtain ⟨lines, alone⟩ := ih later
    refine ⟨fun number s => ?_, ?_⟩
    · rw [lineAll_cons_of_declines here, lines, declined, declined]
    · rw [singleFirst_cons_of_declines here, alone]

/-- A line that one member takes and the others decline is read as by that member. -/
theorem exists_of_takes {before after : List Reader} (h : Takes reader number text)
    (others : ∀ other ∈ before ++ after, Declines other text) :
    ∃ members name entry s,
      singleFirst (before ++ reader :: after) text = (members, some (name, entry)) ∧
      lineAll (before ++ reader :: after) number text .empty = ⟨members, s, .ok true⟩ ∧
      s.lookup name = .ok (.entry entry) := by
  induction before with
  | nil =>
    obtain ⟨state, name, entry, s, alone, inside, found⟩ := h
    have ok : (reader.line number text .empty).result = .ok true := by rw [inside]
    have behind : lineAll after number text s = declined after s :=
      (all_of_declines others).1 number s
    refine ⟨state :: after, name, entry, s, ?_, ?_, found⟩
    · rw [List.nil_append, singleFirst, alone]
    · rw [List.nil_append, lineAll_cons_of_ok ok, inside, behind]
      rfl
  | cons other before ih =>
    obtain ⟨here, later⟩ := List.forall_mem_cons.1 others
    obtain ⟨members, name, entry, s, alone, inside, found⟩ := ih later
    refine ⟨other :: members, name, entry, s, ?_, ?_, found⟩
    · rw [List.cons_append, singleFirst_cons_of_declines here, alone]
    · rw [List.cons_append, lineAll_cons_of_declines here, inside]

/-- Of readers at most one of which has to do with a line, all decline it, or one takes it and
the others decline it. -/
theorem all_or_one {members : List Reader}
    (each : ∀ member ∈ members, Takes member number text ∨ Declines member text)
    (apart : members.Pairwise fun one other => Declines one text ∨ Declines other text) :
    (∀ member ∈ members, Declines member text) ∨
      ∃ before reader after, members = before ++ reader :: after ∧ Takes reader number text ∧
        ∀ other ∈ before ++ after, Declines other text := by
  by_cases all : ∀ member ∈ members, Declines member text
  · exact .inl all
  · simp only [not_forall, exists_prop] at all
    obtain ⟨reader, mem, concerned⟩ := all
    obtain ⟨before, after, rfl⟩ := List.append_of_mem mem
    refine .inr ⟨before, reader, after, rfl, (each reader mem).resolve_right concerned, ?_⟩
    obtain ⟨-, behind, across⟩ := List.pairwise_append.1 apart
    intro other side
    rcases List.mem_append.1 side with front | back
    · exact (across other front reader (List.mem_cons_self ..)).resolve_right concerned
    · exact ((List.pairwise_cons.1 behind).1 other back).resolve_left concerned

/-! ## Both ways of reading -/

/-- A reader agrees with itself on a line, read alone and read into an empty scope. -/
structure Agrees (reader : Reader) (number : Nat) (text : Text) : Prop where
  /-- One thing is in the line just when the line is recognised. -/
  item_iff : (∃ item, (reader.single text).2 = .ok item) ↔
    (reader.line number text .empty).result = .ok true
  /-- It is what its name stands for then. -/
  found : ∀ name entry, (reader.single text).2 = .ok (name, entry) →
    (reader.line number text .empty).scope.lookup name = .ok (.entry entry)
  /-- There is nothing in it just when it is declined. -/
  nothing_iff : (reader.single text).2 = .error (.noSingleItem text) ↔
    (reader.line number text .empty).result = .ok false
  /-- The counts are the same afterwards. -/
  state : (reader.single text).1 = (reader.line number text .empty).state

theorem Takes.agrees (h : Takes reader number text) : Agrees reader number text := by
  obtain ⟨state, name, entry, s, alone, inside, found⟩ := h
  constructor
  all_goals simp only [alone, inside]
  · simp
  · rintro other thing same
    cases same
    exact found
  · simp

theorem Declines.agrees (h : Declines reader text) (number : Nat) :
    Agrees reader number text := by
  have inside := h.2 number .empty
  constructor
  all_goals simp only [h.1, inside, declined]
  all_goals simp

/-- A group takes what one of its members takes while the others decline it. -/
theorem takes_group {before after : List Reader} (h : Takes reader number text)
    (others : ∀ other ∈ before ++ after, Declines other text) (config : Config) :
    Takes (.group config (before ++ reader :: after)) number text := by
  obtain ⟨members, name, entry, s, alone, inside, found⟩ := exists_of_takes h others
  refine ⟨.group config members, name, entry, s, ?_, ?_, found⟩
  · rw [single, alone]
  · rw [line, inside]
    rfl

/-- What all members decline is left to the configuration. -/
theorem group_of_declines {members : List Reader}
    (h : ∀ member ∈ members, Declines member text) (config : Config) :
    (group config members).single text = (group config members, .error (.noSingleItem text)) ∧
      ∀ number s, (group config members).line number text s =
        ⟨group config members, s, .ok (config.accepts false text)⟩ := by
  obtain ⟨lines, alone⟩ := all_of_declines h
  refine ⟨by rw [single, alone], fun number s => ?_⟩
  rw [line, lines, declined]
  rfl

theorem Declines.result (h : Declines reader text) (number : Nat) (s : Scope) :
    (reader.line number text s).result = .ok false := by
  rw [h.2 number s, declined]

/-- A line read alone, and the same line read into an empty scope. Each reader of constants,
records or literals agrees with itself on the two, whatever was counted before, and no two of them
recognise the same line. So a group of the three, in any order, agrees with itself on a line that
one of them recognises, and on every line when its configuration accepts none that they decline.
A line that it does accept has nothing in it, and leaves the scope and the counts as they were. -/
theorem single_agrees (counters : Counters) (number : Nat) (text : Text) :
    (∀ reader ∈ itemReaders counters, Agrees reader number text) ∧
    (itemReaders counters).Pairwise (fun one other => ∀ m n s t,
      (one.line m text s).result = .ok false ∨ (other.line n text t).result = .ok false) ∧
    ∀ config members, members.Perm (itemReaders counters) →
      ((config.accepts false text = false ∨
          ∃ member ∈ members, (member.line number text .empty).result = .ok true) →
        Agrees (.group config members) number text) ∧
      (config.accepts false text = true →
        (∀ member ∈ members, (member.line number text .empty).result = .ok false) →
          (group config members).single text =
              (group config members, .error (.noSingleItem text)) ∧
            (group config members).line number text .empty =
              ⟨group config members, .empty, .ok true⟩) := by
  have each : ∀ reader ∈ itemReaders counters, Takes reader number text ∨ Declines reader text :=
    fun reader mem => takes_or_declines mem number text
  refine ⟨fun reader mem => ?_, (pairwise_declines counters text).imp ?_, ?_⟩
  · rcases each reader mem with takes | declines
    · exact takes.agrees
    · exact declines.agrees number
  · rintro one other (declines | declines) m n s t
    · exact .inl (declines.result m s)
    · exact .inr (declines.result n t)
  intro config members order
  have apart : members.Pairwise fun one other => Declines one text ∨ Declines other text :=
    (order.pairwise_iff fun h => h.symm).2 (pairwise_declines counters text)
  rcases all_or_one (fun member mem => each member (order.subset mem)) apart with
    all | ⟨before, reader, after, rfl, takes, others⟩
  · obtain ⟨alone, inside⟩ := group_of_declines all config
    constructor
    · rintro (refused | ⟨member, mem, recognized⟩)
      · refine Declines.agrees ⟨alone, fun number s => ?_⟩ number
        rw [inside, refused, declined]
      · rw [(all member mem).result] at recognized
        cases recognized
    · intro accepted _
      rw [inside, accepted]
      exact ⟨alone, rfl⟩
  · constructor
    · intro _
      exact (takes_group takes others config).agrees
    · intro _ none_recognizes
      obtain ⟨state, name, entry, s, -, inside, -⟩ := takes
      have refused := none_recognizes reader (by simp)
      rw [inside] at refused
      cases refused

/-- The readers in another order, after two literals. -/
def counting : Reader :=
  .group .default [.literals (.ofList [("ns".toList, 2)]), .constants, .records]

theorem single_agrees_literal :
    (counting.single "# literal ns::(literal) = 'a'".toList).2 =
        .ok ("ns::(literal)\x602".toList, .value (.char 'a')) ∧
      (counting.line 7 "# literal ns::(literal) = 'a'".toList .empty).scope.lookup
        "ns::(literal)\x602".toList = .ok (.entry (.value (.char 'a'))) ∧
      (counting.single "# literal ns::(literal) = 'a'".toList).1 =
        (counting.line 7 "# literal ns::(literal) = 'a'".toList .empty).state := by
  have order : ([.literals (.ofList [("ns".toList, 2)]), .constants, .records] : List Reader).Perm
      (itemReaders (.ofList [("ns".toList, 2)])) := (List.perm_append_singleton ..).symm
  have recognized : ((Reader.literals (.ofList [("ns".toList, 2)])).line 7
      "# literal ns::(literal) = 'a'".toList .empty).result = .ok true := by decide +kernel
  have alone : (counting.single "# literal ns::(literal) = 'a'".toList).2 =
      .ok ("ns::(literal)\x602".toList, .value (.char 'a')) := by decide +kernel
  obtain ⟨-, -, groups⟩ := single_agrees (.ofList [("ns".toList, 2)]) 7
    "# literal ns::(literal) = 'a'".toList
  have agrees : Agrees counting 7 _ :=
    (groups .default _ order).1 (.inr ⟨_, List.mem_cons_self .., recognized⟩)
  exact ⟨alone, agrees.found _ _ alone, agrees.state⟩

/-- A group that leaves out blank lines accepts them, and there is nothing in them. -/
theorem single_disagrees :
    ([.constants, .records, .literals .empty] : List Reader).Perm (itemReaders .empty) ∧
    ¬ Agrees (.group .default [.constants, .records, .literals .empty]) 1 [' '] := by
  refine ⟨.refl _, fun agrees => ?_⟩
  have accepted : ((Reader.group .default [.constants, .records, .literals .empty]).line 1 [' ']
      .empty).result = .ok true := rfl
  obtain ⟨item, found⟩ := agrees.item_iff.2 accepted
  cases found

end Reader

end ConstantDump
