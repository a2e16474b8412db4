import ConstantDump.Proofs.Reader.Line
import ConstantDump.Proofs.Scope.Overwrite

/-!
Registering records. What is declared inside the place of a record is taken out of it, and goes
into the record that is then stored there.

* `Scope.assignAt_modifyAt`: to an assignment, it makes no difference what its place was changed
  to before;
* `line_records_members`: so no member is lost, whether the record can be stored or not.
-/

namespace ConstantDump

namespace Scope

/-- An assignment leaves the same scope, or fails the same way, when the entry at its place has
been changed before. -/
theorem assignAt_modifyAt {f : Entry → Entry} {path : List Text} {s t : Scope}
    (h : modifyAt? f path s = some t) (name : Text) (entry : Entry) :
    assignAt name entry path t = assignAt name entry path s := by
  induction path generalizing s t with
  | nil => cases h
  | cons component path ih =>
    cases path with
    | nil =>
      obtain ⟨old, -, hs⟩ := Option.bind_eq_some_iff.1 h
      cases hs
      simp [assignAt, OrderedMap.insert_insert]
    | cons next rest =>
      obtain ⟨child, members, members', found, declared, inside, rfl⟩ :=
        modifyAt?_eq_some_iff.1 h
      cases child <;> cases declared <;>
        simp [assignAt, found, Entry.withMembers, OrderedMap.insert_insert, ih inside]

theorem assign_withoutMembers (s : Scope) (name : Text) (entry : Entry) :
    (s.withoutMembers name).assign name entry = s.assign name entry := by
  unfold withoutMembers
  cases h : modifyAt? (·.withMembers .empty) (Name.path name) s with
  | none => rfl
  | some t => exact assignAt_modifyAt h name entry

end Scope

namespace Reader

theorem line_records_eq {line name fields : Text}
    (item : Line.record? line = some (name, fields)) (number : Nat) (s : Scope) :
    Reader.records.line number line s = registerRecord number name fields s := by
  rw [Reader.line, lineRecords, item, registerRecord]
  simp only [stored, Scope.assign_withoutMembers]

/-- A record's line takes the members of the record's place out and stores the record with them.
When that succeeds, the name stands for the record with the fields of the line, and inside it
are the members that were inside the scope or record of the same name, or none; every name whose
path is neither a beginning nor a continuation of the record's path stands for what it stood for;
and at each component of the path, the names beside it keep their order, an old component its
place, and a new one comes last. When it fails, the scope is what it was, with all members back
in their place. -/
theorem line_records_members {line name fields : Text}
    (item : Line.record? line = some (name, fields)) (number : Nat) (s : Scope) :
    registerRecord number name fields s = Reader.records.line number line s ∧
    (∀ recognized, (Reader.records.line number line s).result = .ok recognized →
      let s' := (Reader.records.line number line s).scope
      s'.lookup name = .ok (.entry
        (.record (.ofFieldList name fields) ((s.members? name).getD .empty))) ∧
      (∀ other, ¬ Name.path name <+: Name.path other → ¬ Name.path other <+: Name.path name →
        s'.lookup other = s.lookup other) ∧
      (∀ before component after, Name.path name = before ++ component :: after →
        Scope.namesAt before s' = Scope.withName (Scope.namesAt before s) component)) ∧
    (∀ error, (Reader.records.line number line s).result = .error error →
      (Reader.records.line number line s).scope = s) := by
  have steps : Reader.records.line number line s =
      storedItem .records s number (recordItem? line s) := by
    rw [Reader.line, lineRecords_eq]
  refine ⟨(line_records_eq item number s).symm, ?_, ?_⟩
  · intro recognized ok
    rw [steps] at ok ⊢
    have stored := storedItem_ok ok
    rw [recordItem?, item] at stored ⊢
    cases stored with
    | assigned step =>
      have assigned := Scope.assigned_path step
      refine ⟨?_, ?_, ?_⟩
      · exact Scope.lookup_eq_ok_iff.2 (assigned.find?_entry rfl)
      · intro other beyond before
        exact Scope.lookup_congr (assigned.find?_of_not_prefix beyond before)
      · intro before component after way
        exact assigned.namesAt_eq way
  · intro error failed
    rw [steps] at failed ⊢
    exact (storedItem_error failed).2.1

/-- A namespace in which a constant of a record comes before the record. -/
def earlyOrigin : Scope :=
  .ofList [("geo".toList, .scope (.ofList
    [("Point".toList, .scope (.ofList [("ORIGIN".toList, .value (.int 0))])),
      ("unit".toList, .value (.int 1))]))]

theorem line_records_members_early :
    let point := Reader.records.line 7 "geo::Point\x7bx, y\x7d".toList earlyOrigin
    let inside := Reader.records.line 8 "geo::unit::Inch\x7bx\x7d".toList earlyOrigin
    point.result = .ok true ∧
    point.scope.lookup "geo::Point".toList = .ok (.entry
      (.record (.ofFieldList "geo::Point".toList "x, y".toList)
        (.ofList [("ORIGIN".toList, .value (.int 0))]))) ∧
    point.scope.lookup "geo::unit".toList = earlyOrigin.lookup "geo::unit".toList ∧
    Scope.namesAt ["geo".toList] point.scope = ["Point".toList, "unit".toList] ∧
    inside.scope = earlyOrigin := by
  intro point inside
  have read : point.result = .ok true := rfl
  have path : Name.path "geo::Point".toList = ["geo".toList, "Point".toList] := by decide +kernel
  have members : (earlyOrigin.members? "geo::Point".toList).getD .empty =
      .ofList [("ORIGIN".toList, .value (.int 0))] := rfl
  have item : Line.record? "geo::Point\x7bx, y\x7d".toList =
      some ("geo::Point".toList, "x, y".toList) := by decide +kernel
  have refusal : inside.result = .error (.scope
      (.notAScope "geo::unit::Inch".toList "unit".toList "int".toList) 8) := rfl
  have other_item : Line.record? "geo::unit::Inch\x7bx\x7d".toList =
      some ("geo::unit::Inch".toList, "x".toList) := by decide +kernel
  obtain ⟨-, kept, -⟩ := line_records_members item 7 earlyOrigin
  obtain ⟨-, -, refused⟩ := line_records_members other_item 8 earlyOrigin
  obtain ⟨found, elsewhere, order⟩ := kept true read
  rw [members] at found
  refine ⟨read, found, elsewhere _ (by decide +kernel) (by decide +kernel), ?_,
    refused _ refusal⟩
  rw [order ["geo".toList] "Point".toList [] path]
  decide +kernel

end Reader

end ConstantDump
