import ConstantDump.Proofs.Name.Addressable
import ConstantDump.Proofs.Reader.Line
import ConstantDump.Proofs.Scope.Listing

/-!
Scopes that are built by setting names and by registering records. What they hold is found again
by its printed path.

* `Printable`: no name is there twice, and every way to an entry is the beginning of the path of
  some addressable name; an assignment keeps that (`Printable.assigned`), and so does each call
  (`Printable.run`);
* `built_lookup`: the entries and enumerations of a built scope by their printed paths.
-/

namespace ConstantDump.Scope

/-- What can be stored without bringing members along. -/
inductive Bare
  | value (value : Value)
  | enumeration (enumeration : Enumeration)
  | record (record : Record)

def Bare.entry : Bare → Entry
  | .value v => .value v
  | .enumeration e => .enumeration e
  | .record r => .record r .empty

/-- A change of a scope: something is set under a name, or the reader of records is given a
line. -/
inductive Call
  | set (name : Text) (content : Bare)
  | register (number : Nat) (line : Text)

namespace Call

/-- The scope afterwards, whether the call fails or not. -/
def run : Call → Scope → Scope
  | .set name content, s => (s.assign name content.entry).1
  | .register number line, s => (Reader.records.line number line s).scope

/-- The name that is stored. A line without a record has none. -/
def name? : Call → Option Text
  | .set name _ => some name
  | .register _ line => (Line.record? line).map (·.1)

def built (calls : List Call) : Scope := calls.foldl (fun s call => call.run s) .empty

end Call

/-- No name is there twice, and all ways to entries are ways to addressable names. -/
structure Printable (s : Scope) : Prop where
  names : WellNamed s
  ways : ∀ path entry, find? path s = some (.entry entry) →
    ∃ name, Name.Addressable name ∧ path <+: Name.path name

variable {s s' : Scope} {entry : Entry} {name : Text}

theorem Printable.path_join (h : Printable s) {path : List Text}
    (found : find? path s = some (.entry entry)) : Name.path (Name.join path) = path := by
  obtain ⟨name, addressable, pre⟩ := h.ways path entry found
  refine addressable.path_join ?_ pre
  rintro rfl
  cases found

/-! ## Calls -/

theorem printable_empty : Printable .empty where
  names := wellNamed_empty
  ways := by simp

/-- An entry that is assigned brings no members along but those that were there before. -/
theorem Printable.assigned (h : Printable s) (addressable : Name.Addressable name)
    (step : Assigned entry (Name.path name) s s')
    (kept : ∀ members, entry.members? = some members →
      members = (membersAt? (Name.path name) s).getD .empty ∨ members = .empty) :
    Printable s' := by
  have known (members : Scope) (declared : entry.members? = some members) :
      membersAt? (Name.path name) s = some members ∨ members = .empty := by
    rcases kept members declared with rfl | rfl
    · cases hm : membersAt? (Name.path name) s with
      | some members => exact .inl rfl
      | none => exact .inr rfl
    · exact .inr rfl
  refine ⟨step.wellNamed h.names fun members declared => ?_, fun path found after => ?_⟩
  · rcases known members declared with before | rfl
    · exact h.names.membersAt before
    · exact wellNamed_empty
  · rcases step.find?_cases after with ⟨old, before⟩ | pre | ⟨rest, members, rfl, hne, declared,
      inside⟩
    · exact h.ways path old before
    · exact ⟨name, addressable, pre⟩
    · -- What came inside the entry was found along the same way before.
      rcases known members declared with before | rfl
      · rw [← find?_append before hne] at inside
        exact h.ways _ found inside
      · rw [find?_empty] at inside
        cases inside

/-- A call keeps it, also when it fails. -/
theorem Printable.run (h : Printable s) {call : Call}
    (addressable : ∀ name ∈ call.name?, Name.Addressable name) : Printable (call.run s) := by
  cases call with
  | set name content =>
    show Printable (s.assign name content.entry).1
    rcases step : s.assign name content.entry with ⟨t, _ | _⟩
    · obtain rfl : t = s := assignAt_error step
      exact h
    · refine h.assigned (addressable name rfl) (assigned_path step) fun members declared => .inr ?_
      cases content <;> cases declared
      rfl
  | register number line =>
    show Printable (Reader.line .records number line s).scope
    rw [Reader.line, Reader.lineRecords_eq]
    cases failed : (Reader.storedItem .records s number (Reader.recordItem? line s)).result with
    | error error =>
      rw [(Reader.storedItem_error failed).2.1]
      exact h
    | ok recognized =>
      have stored := Reader.storedItem_ok failed
      cases item : Line.record? line with
      | none =>
        rw [Reader.recordItem?_eq_none item] at stored ⊢
        exact h
      | some found =>
        rw [Reader.recordItem?, item] at stored ⊢
        cases stored with
        | assigned step =>
          refine h.assigned (addressable found.1 ?_) (assigned_path step) fun members declared => ?_
          · simp [Call.name?, item]
          · cases declared
            exact .inl rfl

theorem printable_built {calls : List Call}
    (addressable : ∀ call ∈ calls, ∀ name ∈ call.name?, Name.Addressable name) :
    Printable (Call.built calls) := by
  have from_any (s : Scope) (h : Printable s) :
      Printable (calls.foldl (fun s call => call.run s) s) := by
    induction calls generalizing s with
    | nil => exact h
    | cons call calls ih =>
      obtain ⟨here, later⟩ := List.forall_mem_cons.1 addressable
      exact ih later _ (h.run here)
  exact from_any .empty printable_empty

/-- Every entry of a built scope, at any depth, is found by its keys, joined. The enumerations
are listed under such names: all of them, depth first and in the order in which names came first,
no name twice, and each is the one that its name stands for. -/
theorem built_lookup {calls : List Call}
    (addressable : ∀ call ∈ calls, ∀ name ∈ call.name?, Name.Addressable name) :
    let s := Call.built calls
    (∀ path entry, Holds s path entry → s.lookup (Name.join path) = .ok (.entry entry)) ∧
    s.enumerations = s.listing.map (fun place => (Name.join place.1, place.2)) ∧
    (∀ path e, (path, e) ∈ s.listing ↔ Holds s path (.enumeration e)) ∧
    (s.listing.Pairwise fun place later => Precedes s place.1 later.1) ∧
    (s.enumerations.map (·.1)).Nodup ∧
    ∀ name e, (name, e) ∈ s.enumerations → s.enumeration? name = some e := by
  intro s
  have printable : Printable s := printable_built addressable
  have names := printable.names
  have found {path : List Text} {entry : Entry} (holds : Holds s path entry) :
      find? (Name.path (Name.join path)) s = some (.entry entry) := by
    have there := holds.find?_eq names
    rwa [printable.path_join there]
  have listed {place : List Text × Enumeration} (mem : place ∈ s.listing) :
      Holds s place.1 (.enumeration place.2) := names.mem_listing_iff.1 mem
  refine ⟨fun path entry holds => lookup_eq_ok_iff.2 (found holds), enumerations_eq s,
    fun path e => names.mem_listing_iff, names.pairwise_listing, ?_, fun name e mem => ?_⟩
  · rw [enumerations_eq, List.map_map, List.Nodup, List.pairwise_map]
    refine names.pairwise_listing.imp_of_mem fun mem mem' order same => order.ne ?_
    have back {place : List Text × Enumeration} (mem : place ∈ s.listing) :
        Name.path (Name.join place.1) = place.1 :=
      printable.path_join ((listed mem).find?_eq names)
    rw [← back mem, ← back mem']
    exact congrArg Name.path same
  · rw [enumerations_eq] at mem
    obtain ⟨place, listed_there, same⟩ := List.mem_map.1 mem
    cases same
    exact enumerationAt?_of_find? _ (found (listed listed_there))

def noEnumerators : Enumeration := ⟨"E".toList, .empty⟩

/-- Calls with separators, signs and colons inside the components of their names. The last one
fails. -/
def spelledCalls : List Call :=
  [.set "::Box<a::b>::f(c::d)::E".toList (.enumeration noEnumerators),
    .set "operator<::x:::y:".toList (.enumeration noEnumerators),
    .set "(anonymous namespace)::n".toList (.value (.int 1)),
    .register 4 "Box<a::b>\x7bp, q\x7d".toList,
    .set "Box<a::b>::E".toList (.enumeration noEnumerators),
    .set "n::m".toList (.value (.int 2))]

theorem built_lookup_spelled :
    (∀ call ∈ spelledCalls, ∀ name ∈ call.name?, Name.Addressable name) ∧
    (Call.built spelledCalls).enumerations.map (·.1) =
      ["Box<a::b>::f(c::d)::E".toList, "Box<a::b>::E".toList, "operator<::x:::y:".toList] ∧
    (Call.built spelledCalls).lookup "operator<::x:::y:".toList =
      .ok (.entry (.enumeration noEnumerators)) ∧
    (Call.built spelledCalls).enumeration? "Box<a::b>::f(c::d)::E".toList =
      some noEnumerators := by
  have addressable : ∀ call ∈ spelledCalls, ∀ name ∈ call.name?, Name.Addressable name := by
    decide +kernel
  obtain ⟨entries, -, listed, -, -, enumerations⟩ := built_lookup addressable
  have places : (Call.built spelledCalls).listing =
      [(["Box<a::b>".toList, "f(c::d)".toList, "E".toList], noEnumerators),
        (["Box<a::b>".toList, "E".toList], noEnumerators),
        (["operator<".toList, "x".toList, ":y:".toList], noEnumerators)] := by decide +kernel
  have names : (Call.built spelledCalls).enumerations =
      [("Box<a::b>::f(c::d)::E".toList, noEnumerators), ("Box<a::b>::E".toList, noEnumerators),
        ("operator<::x:::y:".toList, noEnumerators)] := by decide +kernel
  refine ⟨addressable, by rw [names]; rfl, ?_, enumerations _ _ (by rw [names]; simp)⟩
  exact entries ["operator<".toList, "x".toList, ":y:".toList] _
    ((listed _ _).1 (by rw [places]; simp))

end ConstantDump.Scope
