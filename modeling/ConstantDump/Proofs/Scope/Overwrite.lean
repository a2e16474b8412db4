import ConstantDump.Proofs.Scope.Obstacle

/-!
Assigning and modifying at one place. What is stored last under a path is all that counts:

* `Assigned.exists_modifyAt`: to assign an enumeration and put another one in its place is to
  assign the other one;
* `assignAt_enumerator_self`: to assign an enumerator what it already has changes nothing.
-/

namespace ConstantDump

namespace OrderedMap

variable {α : Type}

/-- Of two values under one name, the second one counts. -/
theorem insert_insert (m : OrderedMap α) (key : Text) (value other : α) :
    (m.insert key value).insert key other = m.insert key other := by
  obtain ⟨entries⟩ := m
  simp only [insert, mk.injEq]
  induction entries with
  | nil => simp [insertIn]
  | cons entry rest ih =>
    by_cases hk : entry.1 = key
    · simp [insertIn, hk]
    · simp [insertIn, hk, ih]

theorem ofList_concat (entries : List (Text × α)) (key : Text) (value : α) :
    ofList (entries ++ [(key, value)]) = (ofList entries).insert key value := by
  simp [ofList, update, List.foldl_append]

end OrderedMap

namespace Scope

variable {path : List Text} {s t : Scope} {e e' : Enumeration}

/-- The steps of an assignment are those that it takes. -/
theorem Assigned.assignAt_eq {entry : Entry} (h : Assigned entry path s t) (name : Text) :
    assignAt name entry path s = (t, .ok ()) := by
  induction h with
  | last component s => rfl
  | inside container step ih => rw [assignAt_inside container, ih]
  | enumerator found integral added =>
    simp [assignAt, found, assignEnumerator_ok_iff.2 ⟨_, integral, added⟩]

theorem withMembers_withMembers {container : Entry} {members : Scope}
    (h : container.members? = some members) (first second : Scope) :
    (container.withMembers first).withMembers second = container.withMembers second := by
  cases container <;> cases h <;> rfl

/-- An enumeration that is assigned, with another one put in its place afterwards, is the
other one assigned. -/
theorem Assigned.exists_modifyAt (h : Assigned (.enumeration e) path s t) (e' : Enumeration) :
    ∃ t', modifyAt? (fun _ => .enumeration e') path t = some t' ∧
      Assigned (.enumeration e') path s t' := by
  induction h with
  | last component s =>
    refine ⟨s.insert component (.enumeration e'), ?_, .last component s⟩
    simp [modifyAt?, OrderedMap.insert_insert]
  | @inside component next rest s members members' container step ih =>
    obtain ⟨members'', modified, assigned⟩ := ih
    refine ⟨_, modifyAt?_eq_some_iff.2 ⟨_, members', members'', OrderedMap.get?_insert_self ..,
      Entry.members?_withMembers container members', modified, ?_⟩, .inside container assigned⟩
    rw [withMembers_withMembers container, OrderedMap.insert_insert]
  | enumerator found integral added => cases integral

/-- An enumerator that is assigned what it already has changes nothing. -/
theorem assignAt_enumerator_self {name enumerator : Text} {value : Int}
    (found : find? path s = some (.entry (.enumeration e)))
    (same : e.insert enumerator value = .ok e) :
    assignAt name (.value (.int value)) (path ++ [enumerator]) s = (s, .ok ()) := by
  induction path generalizing s with
  | nil => cases found
  | cons component path ih =>
    cases path with
    | nil =>
      have here : s.get? component = some (.enumeration e) := by
        obtain ⟨entry, hg, he⟩ := Option.map_eq_some_iff.1 found
        cases he
        exact hg
      have added : assignEnumerator name (.value (.int value)) e enumerator = .ok e :=
        assignEnumerator_ok_iff.2 ⟨value, rfl, same⟩
      simp [assignAt, here, added, OrderedMap.insert_of_get?_eq_some here]
    | cons next rest =>
      have there : s.get? component = some (s.childAt component) := by
        cases hg : s.get? component with
        | none => simp [find?, hg] at found
        | some child => rw [childAt_of_get? hg]
      cases hm : (s.childAt component).members? with
      | none => exact absurd found (find?_past there hm (by simp) _)
      | some members =>
        rw [find?_inside hm] at found
        have inner : assignAt name (.value (.int value)) (next :: (rest ++ [enumerator])) members =
            (members, .ok ()) := ih found
        rw [List.cons_append, List.cons_append, assignAt_inside hm, inner,
          Entry.withMembers_self hm, OrderedMap.insert_of_get?_eq_some there]

end Scope

end ConstantDump
