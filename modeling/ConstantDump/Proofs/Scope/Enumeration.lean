import ConstantDump.Proofs.Scope.Store

/-!
What becomes of an enumeration in a scope when something is assigned or modified.

* `Assigned.enumerationAt?_of_not_prefix`: what is assigned elsewhere leaves it, but may
  add an enumerator;
* `Assigned.enumerationAt?_of_prefix`: a value assigned at it, or on the way to it, ends it;
* `enumeration?_assign`: an enumeration that is assigned is there;
* `assigned_of_modifyAt?`: a modification is an assignment of the changed entry;
* `enumeration?_addEnumerator`: adding an enumerator changes just that.
-/

namespace ConstantDump

namespace Enumeration

theorem containsName_insert {e e' : Enumeration} {name : Text} {value : Int}
    (h : e.insert name value = .ok e') : e'.containsName name = true := by
  unfold insert at h
  split at h
  · cases h
    simp [containsName, valueOf?]
  · cases h

/-- An enumerator is never lost by adding one. -/
theorem containsName_of_insert {e e' : Enumeration} {name other : Text} {value : Int}
    (h : e.insert name value = .ok e') (ho : e.containsName other = true) :
    e'.containsName other = true := by
  by_cases hn : other = name
  · rw [hn]
    exact containsName_insert h
  · rw [containsName, Scope.valueOf?_insert_of_ne h hn]
    exact ho

end Enumeration

namespace Scope

theorem enumeration?_eq (s : Scope) (name : Text) :
    s.enumeration? name = enumerationAt? (Name.path name) s := rfl

theorem enumerationAt?_of_find? {path : List Text} {s : Scope} (entry : Entry)
    (h : find? path s = some (.entry entry)) : enumerationAt? path s = entry.enumeration? := by
  rw [enumerationAt?, h]
  rfl

theorem enumerationAt?_congr {path : List Text} {s s' : Scope}
    (h : find? path s' = find? path s) : enumerationAt? path s' = enumerationAt? path s := by
  rw [enumerationAt?, h, enumerationAt?]

/-- A component that leads to a scope, a record or nothing leads to no enumeration. -/
theorem enumerationAt?_of_members? {s members : Scope} {component : Text}
    (h : (s.childAt component).members? = some members) :
    enumerationAt? [component] s = none := by
  cases hg : s.get? component with
  | none => simp [enumerationAt?, find?, hg]
  | some entry =>
    rw [childAt_of_get? hg] at h
    have found : find? [component] s = some (.entry entry) := by simp [find?, hg]
    rw [enumerationAt?_of_find? entry found]
    exact Entry.enumeration?_of_members? h

/-! ## Assigning -/

/-- Where the assigned path does not lead to an enumeration or past it, the enumeration
stays, with one more enumerator if the path ends right inside it. -/
theorem Assigned.enumerationAt?_of_not_prefix {entry : Entry} {path other : List Text}
    {s s' : Scope} (h : Assigned entry path s s') (hp : ¬ path <+: other) :
    enumerationAt? other s' = enumerationAt? other s ∨
      ∃ e e' name value, enumerationAt? other s = some e ∧ e.insert name value = .ok e' ∧
        enumerationAt? other s' = some e' := by
  induction h generalizing other with
  | last component s => exact .inl (enumerationAt?_congr (find?_insert_elsewhere s entry hp))
  | @inside component next rest s members members' container step ih =>
    have after := members?_childAt_insert container members'
    cases other with
    | nil => exact .inl rfl
    | cons first others =>
      by_cases hne : first = component
      · subst hne
        cases others with
        | nil =>
          rw [enumerationAt?_of_members? container, enumerationAt?_of_members? after]
          exact .inl rfl
        | cons second others =>
          have inside : ¬ next :: rest <+: second :: others := fun hc =>
            hp (List.cons_prefix_cons.2 ⟨rfl, hc⟩)
          simp only [enumerationAt?, find?_inside after, find?_inside container]
          exact ih inside
      · exact .inl (enumerationAt?_congr
          (find?_insert_of_ne s _ hne others))
  | @enumerator component name s e e' value found integral added =>
    cases other with
    | nil => exact .inl rfl
    | cons first others =>
      by_cases hne : first = component
      · subst hne
        cases others with
        | nil =>
          refine .inr ⟨e, e', name, value, ?_, added, ?_⟩
          · exact enumerationAt?_of_find? (.enumeration e) (by simp [find?, found])
          · exact enumerationAt?_of_find? (.enumeration e') (by simp [find?])
        | cons second others =>
          have hn : second ≠ name := by
            rintro rfl
            exact hp (by simp [List.cons_prefix_cons])
          refine .inl (enumerationAt?_congr ?_)
          simp [find?, found, valueOf?_insert_of_ne added hn]
      · exact .inl (enumerationAt?_congr
          (find?_insert_of_ne s _ hne others))

/-- Past a value, or past an enumerator, there is no enumeration. -/
theorem Assigned.enumerationAt?_of_prefix {value : Value} {path other : List Text}
    {s s' : Scope} (h : Assigned (.value value) path s s') (hp : path <+: other) :
    enumerationAt? other s' = none := by
  induction h generalizing other with
  | last component s =>
    obtain ⟨others, rfl⟩ := hp
    cases others with
    | nil => exact enumerationAt?_of_find? (.value value) (by simp [find?])
    | cons second others => simp [enumerationAt?, find?]
  | @inside component next rest s members members' container step ih =>
    obtain ⟨others, rfl⟩ := hp
    have after := members?_childAt_insert container members'
    have inside := ih (List.prefix_append (next :: rest) others)
    simp only [enumerationAt?, List.cons_append, find?_inside after] at inside ⊢
    exact inside
  | @enumerator component name s e e' n found integral added =>
    obtain ⟨others, rfl⟩ := hp
    by_cases ho : others = []
    · subst ho
      cases hv : e'.valueOf? name <;> simp [enumerationAt?, find?, hv, Found.stored?]
    · simp [enumerationAt?, find?, ho]

/-- An enumeration that is assigned is there: it has no integer, so that it cannot become
an enumerator. -/
theorem enumeration?_assign {s s' : Scope} {name : Text} {e : Enumeration}
    (h : s.assign name (.enumeration e) = (s', .ok ())) : s'.enumeration? name = some e :=
  enumerationAt?_of_find? _ ((assigned_path h).find?_entry rfl)

/-! ## Modifying -/

/-- A modification that succeeds assigns the changed entry where the components lead to. -/
theorem assigned_of_modifyAt? {f : Entry → Entry} {path : List Text} {s s' : Scope}
    (h : modifyAt? f path s = some s') :
    ∃ old, find? path s = some (.entry old) ∧ Assigned (f old) path s s' := by
  induction path generalizing s s' with
  | nil => cases h
  | cons component path ih =>
    cases path with
    | nil =>
      obtain ⟨old, hg, hs⟩ := Option.bind_eq_some_iff.1 h
      cases hs
      exact ⟨old, by simp [find?, hg], .last component s⟩
    | cons next rest =>
      obtain ⟨child, members, members', hg, declared, step, rfl⟩ := modifyAt?_eq_some_iff.1 h
      obtain rfl := childAt_of_get? hg
      obtain ⟨old, before, after⟩ := ih step
      exact ⟨old, by rw [find?_inside declared, before], .inside declared after⟩

/-- To add an enumerator is to put the longer enumeration in the place of the shorter one. -/
theorem modifyAt?_of_addEnumerator {s s' : Scope} {name enumerator : Text} {value : Int}
    (h : s.addEnumerator? name enumerator value = some (.ok s')) :
    ∃ e e', s.enumeration? name = some e ∧ e.insert enumerator value = .ok e' ∧
      modifyAt? (fun _ => .enumeration e') (Name.path name) s = some s' := by
  obtain ⟨e, he, h⟩ := Option.bind_eq_some_iff.1 h
  cases hi : e.insert enumerator value with
  | error error => simp [hi] at h
  | ok e' =>
    simp only [hi] at h
    obtain ⟨t, ht, hs⟩ := Option.bind_eq_some_iff.1 h
    cases hs
    exact ⟨e, e', he, hi, ht⟩

theorem assigned_of_addEnumerator {s s' : Scope} {name enumerator : Text} {value : Int}
    (h : s.addEnumerator? name enumerator value = some (.ok s')) :
    ∃ e e', s.enumeration? name = some e ∧ e.insert enumerator value = .ok e' ∧
      Assigned (.enumeration e') (Name.path name) s s' := by
  obtain ⟨e, e', he, hi, changed⟩ := modifyAt?_of_addEnumerator h
  obtain ⟨-, -, step⟩ := assigned_of_modifyAt? changed
  exact ⟨e, e', he, hi, step⟩

/-- The enumeration under the name has the enumerator more, and stays where it is. -/
theorem enumeration?_addEnumerator {s s' : Scope} {name enumerator : Text} {value : Int}
    (h : s.addEnumerator? name enumerator value = some (.ok s')) :
    ∃ e e', s.enumeration? name = some e ∧ e.insert enumerator value = .ok e' ∧
      s'.enumeration? name = some e' := by
  obtain ⟨e, e', he, hi, step⟩ := assigned_of_addEnumerator h
  exact ⟨e, e', he, hi, enumerationAt?_of_find? (.enumeration e') (step.find?_entry rfl)⟩

end Scope

end ConstantDump
