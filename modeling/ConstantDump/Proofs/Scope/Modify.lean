import ConstantDump.Proofs.Scope.Enumeration
import ConstantDump.Proofs.Scope.Overwrite

/-!
Changing an entry that is there, against finding it and against assigning. All three go from
component to component.

* `exists_modifyAt?`: what is found as an entry can be changed;
* `parentEnumeration?_of_entry`: an entry is no enumerator, also for an assignment;
* `modify_of_lookup`, `exists_entry_of_modify`: what is changed is what is found;
* `modify_eq_assign`: a name can be changed just when an entry is found under it, and to change
  that entry is to assign the changed one.
-/

namespace ConstantDump.Scope

variable {path : List Text} {s : Scope} {old : Entry}

theorem exists_modifyAt? (found : find? path s = some (.entry old)) (f : Entry → Entry) :
    ∃ s', modifyAt? f path s = some s' := by
  induction path generalizing s with
  | nil => cases found
  | cons component path ih =>
    cases path with
    | nil =>
      obtain ⟨entry, here, -⟩ := Option.map_eq_some_iff.1 found
      exact ⟨s.insert component (f entry), by simp [modifyAt?, here]⟩
    | cons next rest =>
      cases here : s.get? component with
      | none => simp [find?, here] at found
      | some child =>
        cases declared : child.members? with
        | none => exact absurd found (find?_past here declared (by simp) old)
        | some members =>
          rw [find?_inside (by rw [childAt_of_get? here, declared])] at found
          obtain ⟨members', changed⟩ := ih found
          exact ⟨s.insert component (child.withMembers members'), modifyAt?_eq_some_iff.2
            ⟨child, members, members', here, declared, changed, rfl⟩⟩

/-- Where an entry is found, no enumerator is assigned: an enumeration could be put in the place
of the entry, and it has no integer. -/
theorem parentEnumeration?_of_entry (found : find? path s = some (.entry old)) :
    parentEnumeration? path s = none := by
  obtain ⟨s', changed⟩ := exists_modifyAt? found fun _ => .enumeration (.named [])
  obtain ⟨-, -, assigned⟩ := assigned_of_modifyAt? changed
  refine Option.eq_none_iff_forall_ne_some.2 fun e parent => ?_
  obtain ⟨value, integral⟩ := assigned.integral parent
  cases integral

theorem modify_eq_ok_iff {name : Text} {f : Entry → Entry} {s' : Scope} :
    s.modify name f = .ok s' ↔ modifyAt? f (Name.path name) s = some s' := by
  unfold modify
  cases modifyAt? f (Name.path name) s <;> simp

/-- The only failure is that nothing can be changed under the name. -/
theorem modify_eq_error_iff {name : Text} {f : Entry → Entry} {error : ScopeError} :
    s.modify name f = .error error ↔
      error = .notFound name ∧ modifyAt? f (Name.path name) s = none := by
  unfold modify
  cases modifyAt? f (Name.path name) s <;> simp [eq_comm]

/-- What is found as an entry can be changed, and to change it is to assign the changed entry, which
is found afterwards. -/
theorem modify_of_lookup {name : Text} (here : s.lookup name = .ok (.entry old))
    (f : Entry → Entry) :
    ∃ s', s.modify name f = .ok s' ∧ s.assign name (f old) = (s', .ok ()) ∧
      s'.lookup name = .ok (.entry (f old)) := by
  have found := lookup_eq_ok_iff.1 here
  obtain ⟨s', changed⟩ := exists_modifyAt? found f
  obtain ⟨other, same, assigned⟩ := assigned_of_modifyAt? changed
  obtain rfl : old = other := by
    rw [found] at same
    cases same
    rfl
  have assigns : s.assign name (f old) = (s', .ok ()) := assigned.assignAt_eq name
  have afterwards := lookup_of_assign assigns (Eq.refl (Name.path name))
  rw [parentEnumeration?_of_entry found] at afterwards
  exact ⟨s', modify_eq_ok_iff.2 changed, assigns, afterwards⟩

/-- Only what is found as an entry can be changed. -/
theorem exists_entry_of_modify {name : Text} {f : Entry → Entry} {s' : Scope}
    (modified : s.modify name f = .ok s') : ∃ old, s.lookup name = .ok (.entry old) := by
  obtain ⟨old, found, -⟩ := assigned_of_modifyAt? (modify_eq_ok_iff.1 modified)
  exact ⟨old, lookup_eq_ok_iff.2 found⟩

/-- A name can be changed just when it stands for an entry; for an enumerator, and for nothing, it
is not found. The entry that is changed is the one that the name stands for: whatever is made of
it, the scope is the one that assigning it to the name gives, with the same order of names, and the
name stands for it afterwards. -/
theorem modify_eq_assign (s : Scope) (name : Text) (f : Entry → Entry) :
    ((∃ s', s.modify name f = .ok s') ↔ ∃ old, s.lookup name = .ok (.entry old)) ∧
    (∀ old, s.lookup name = .ok (.entry old) →
      ∃ s', s.modify name f = .ok s' ∧ s.assign name (f old) = (s', .ok ()) ∧
        s'.lookup name = .ok (.entry (f old))) ∧
    (∀ error, s.modify name f = .error error ↔
      error = .notFound name ∧ ∀ old, s.lookup name ≠ .ok (.entry old)) := by
  refine ⟨⟨?_, ?_⟩, fun old here => modify_of_lookup here f, fun error => ?_⟩
  · rintro ⟨s', modified⟩
    exact exists_entry_of_modify modified
  · rintro ⟨old, here⟩
    obtain ⟨s', modified, -⟩ := modify_of_lookup here f
    exact ⟨s', modified⟩
  · rw [modify_eq_error_iff, and_congr_right_iff]
    rintro -
    constructor
    · intro none_changed old here
      obtain ⟨s', modified, -⟩ := modify_of_lookup here f
      rw [modify_eq_ok_iff, none_changed] at modified
      cases modified
    · intro nothing
      refine Option.eq_none_iff_forall_ne_some.2 fun s' changed => ?_
      obtain ⟨old, here⟩ := exists_entry_of_modify (modify_eq_ok_iff.2 changed)
      exact nothing old here

def pens : Scope :=
  .ofList [("Pen".toList, .record (.ofFieldList "Pen".toList "width".toList) (.ofList
    [("INK".toList, .value (.int 1)),
      ("Nib".toList, .enumeration ⟨"Nib".toList, .ofList [("FINE".toList, 2)]⟩)]))]

def refilledPens : Scope :=
  .ofList [("Pen".toList, .record (.ofFieldList "Pen".toList "width".toList) (.ofList
    [("INK".toList, .scope .empty),
      ("Nib".toList, .enumeration ⟨"Nib".toList, .ofList [("FINE".toList, 2)]⟩)]))]

theorem modify_eq_assign_pens :
    pens.lookup "::Pen::INK".toList = .ok (.entry (.value (.int 1))) ∧
    pens.modify "::Pen::INK".toList (fun _ => .scope .empty) = .ok refilledPens ∧
    pens.assign "::Pen::INK".toList (.scope .empty) = (refilledPens, .ok ()) ∧
    pens.lookup "Pen::Nib::FINE".toList = .ok (.enumerator 2) ∧
    ¬ ∃ s', pens.modify "Pen::Nib::FINE".toList (fun _ => .scope .empty) = .ok s' := by
  have here : pens.lookup "::Pen::INK".toList = .ok (.entry (.value (.int 1))) := rfl
  have enumerator : pens.lookup "Pen::Nib::FINE".toList = .ok (.enumerator 2) := rfl
  have assigned : pens.assign "::Pen::INK".toList (.scope .empty) = (refilledPens, .ok ()) := rfl
  obtain ⟨-, changed, -⟩ := modify_eq_assign pens "::Pen::INK".toList fun _ => .scope .empty
  obtain ⟨s', modified, assigns, -⟩ := changed _ here
  obtain rfl : refilledPens = s' := congrArg Prod.fst (assigned.symm.trans assigns)
  refine ⟨here, modified, assigned, enumerator, fun succeeds => ?_⟩
  obtain ⟨only, -, -⟩ := modify_eq_assign pens "Pen::Nib::FINE".toList fun _ => .scope .empty
  obtain ⟨old, entry⟩ := only.1 succeeds
  rw [enumerator] at entry
  cases entry

end ConstantDump.Scope
