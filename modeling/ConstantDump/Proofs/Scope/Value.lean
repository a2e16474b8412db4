import ConstantDump.Proofs.Scope.Enumeration

/-!
What becomes of a value in a scope when something is assigned or modified. A way that goes on
past a value ends there, so only what is assigned at its place or around it can end the value.

* `Assigned.valueAt?_elsewhere`: what is assigned elsewhere leaves it;
* `Assigned.valueAt?_of_record`: so does a record around it that keeps its members;
* `valueAt?_addEnumerator`: and every enumerator that is added.
-/

namespace ConstantDump.Scope

variable {s s' members : Scope} {component next : Text} {rest : List Text}

def valueAt? (path : List Text) (s : Scope) : Option Value :=
  find? path s >>= Found.stored? >>= Entry.value?

theorem value?_eq (s : Scope) (name : Text) : s.value? name = valueAt? (Name.path name) s := rfl

theorem valueAt?_of_find? {path : List Text} (entry : Entry)
    (h : find? path s = some (.entry entry)) : valueAt? path s = entry.value? := by
  rw [valueAt?, h]
  rfl

theorem valueAt?_congr {path : List Text} (h : find? path s' = find? path s) :
    valueAt? path s' = valueAt? path s := by
  rw [valueAt?, h, valueAt?]

theorem valueAt?_inside (h : (s.childAt component).members? = some members) (next : Text)
    (rest : List Text) :
    valueAt? (component :: next :: rest) s = valueAt? (next :: rest) members := by
  rw [valueAt?, find?_inside h, valueAt?]

/-- A component that leads to a scope, a record or nothing leads to no value. -/
theorem valueAt?_of_members? (h : (s.childAt component).members? = some members) :
    valueAt? [component] s = none := by
  cases hg : s.get? component with
  | none => simp [valueAt?, find?, hg]
  | some entry =>
    rw [childAt_of_get? hg] at h
    have found : find? [component] s = some (.entry entry) := by simp [find?, hg]
    rw [valueAt?_of_find? entry found]
    cases entry <;> simp [Entry.members?] at h <;> rfl

/-- Past an entry without members there are no values, only enumerators. -/
theorem valueAt?_past {entry : Entry} (found : s.get? component = some entry)
    (h : entry.members? = none) (next : Text) (rest : List Text) :
    valueAt? (component :: next :: rest) s = none := by
  cases entry with
  | value v => simp [valueAt?, find?, found]
  | enumeration e =>
    simp only [valueAt?, find?, found]
    split
    · cases e.valueOf? next <;> rfl
    · rfl
  | record r members => cases h
  | scope members => cases h

/-- A step inside a container leaves the values that it leaves among the members. -/
theorem valueAt?_insert_inside {members' : Scope} {other : List Text}
    (h : (s.childAt component).members? = some members)
    (inside : ∀ next rest, other = component :: next :: rest →
      valueAt? (next :: rest) members' = valueAt? (next :: rest) members) :
    valueAt? other (s.insert component ((s.childAt component).withMembers members')) =
      valueAt? other s := by
  have after := members?_childAt_insert h members'
  cases other with
  | nil => rfl
  | cons first others =>
    by_cases hne : first = component
    · subst hne
      cases others with
      | nil => rw [valueAt?_of_members? h, valueAt?_of_members? after]
      | cons second others =>
        rw [valueAt?_inside after, valueAt?_inside h]
        exact inside second others rfl
    · exact valueAt?_congr (find?_insert_of_ne s _ hne others)

/-- Enumerators are no values of a scope. -/
theorem valueAt?_insert_enumeration {e : Enumeration}
    (found : s.get? component = some (.enumeration e)) (e' : Enumeration) (other : List Text) :
    valueAt? other (s.insert component (.enumeration e')) = valueAt? other s := by
  have after : OrderedMap.get? (s.insert component (.enumeration e')) component =
      some (.enumeration e') := OrderedMap.get?_insert_self ..
  cases other with
  | nil => rfl
  | cons first others =>
    by_cases hne : first = component
    · subst hne
      cases others with
      | nil => simp [valueAt?, find?, found, Found.stored?, Entry.value?]
      | cons second others => rw [valueAt?_past found rfl, valueAt?_past after rfl]
    · exact valueAt?_congr (find?_insert_of_ne s _ hne others)

/-! ## Assigning -/

variable {entry : Entry} {path other : List Text}

/-- An assigned value is there, unless it became an enumerator. -/
theorem Assigned.valueAt?_self {value : Value} (h : Assigned (.value value) path s s')
    (outside : parentEnumeration? path s = none) : valueAt? path s' = some value := by
  have found := h.find?_self
  rw [outside] at found
  exact valueAt?_of_find? (.value value) found

/-- Whatever is assigned leaves the values that are neither at its place nor inside. -/
theorem Assigned.valueAt?_elsewhere (h : Assigned entry path s s')
    (hp : ¬ path <+: other) : valueAt? other s' = valueAt? other s := by
  induction h generalizing other with
  | last component s => exact valueAt?_congr (find?_insert_elsewhere s entry hp)
  | inside container step ih =>
    refine valueAt?_insert_inside container ?_
    rintro second others rfl
    exact ih fun hc => hp (List.cons_prefix_cons.2 ⟨rfl, hc⟩)
  | enumerator found integral added => exact valueAt?_insert_enumeration found _ other

/-- A value ends what is inside its place. -/
theorem Assigned.valueAt?_within {value : Value} (h : Assigned (.value value) path s s')
    (hp : path <+: other) (hne : path ≠ other) : valueAt? other s' = none := by
  induction h generalizing other with
  | last component s =>
    obtain ⟨others, rfl⟩ := hp
    cases others with
    | nil => exact absurd (List.append_nil _).symm hne
    | cons second others =>
      have after : OrderedMap.get? (s.insert component (.value value)) component =
          some (.value value) := OrderedMap.get?_insert_self ..
      exact valueAt?_past after rfl second others
  | @inside component next rest s members members' container step ih =>
    obtain ⟨others, rfl⟩ := hp
    have after := members?_childAt_insert container members'
    have inside := ih (List.prefix_append (next :: rest) others) fun same =>
      hne (congrArg (component :: ·) same)
    rw [List.cons_append, List.cons_append, valueAt?_inside after]
    exact inside
  | @enumerator component name s e e' n found integral added =>
    obtain ⟨others, rfl⟩ := hp
    have after : OrderedMap.get? (s.insert component (.enumeration e')) component =
        some (.enumeration e') := OrderedMap.get?_insert_self ..
    exact valueAt?_past after rfl name others

def membersAt? (path : List Text) (s : Scope) : Option Scope :=
  find? path s >>= Found.stored? >>= Entry.members?

/-- The values behind a component are those of its members, and without members there are
none. -/
theorem valueAt?_behind (s : Scope) (component next : Text) (rest : List Text) :
    valueAt? (component :: next :: rest) s =
      valueAt? (next :: rest) ((membersAt? [component] s).getD .empty) := by
  have nothing : valueAt? (next :: rest) .empty = none := by rw [valueAt?, find?_empty]; rfl
  cases hg : s.get? component with
  | none =>
    have none_inside : membersAt? [component] s = none := by simp [membersAt?, find?, hg]
    rw [none_inside, Option.getD_none, nothing, valueAt?]
    simp [find?, hg]
  | some entry =>
    have inside : membersAt? [component] s = entry.members? := by
      simp [membersAt?, find?, hg, Found.stored?]
    cases hm : entry.members? with
    | none => rw [inside, hm, Option.getD_none, nothing, valueAt?_past hg hm]
    | some members =>
      rw [← childAt_of_get? hg] at hm
      rw [inside, ← childAt_of_get? hg, hm, valueAt?_inside hm]
      rfl

/-- A record that keeps what was declared inside its place leaves all values but one there. -/
theorem Assigned.valueAt?_of_record {record : Record} {kept : Scope}
    (h : Assigned (.record record kept) path s s') (same : kept = (membersAt? path s).getD .empty)
    (hne : path ≠ other) : valueAt? other s' = valueAt? other s := by
  induction h generalizing other with
  | last component s =>
    cases other with
    | nil => rfl
    | cons first others =>
      by_cases hf : first = component
      · subst hf
        obtain ⟨second, others, rfl⟩ := List.exists_cons_of_ne_nil
          (show others ≠ [] by
            rintro rfl
            exact hne rfl)
        have after : (childAt (s.insert first (.record record kept)) first).members? =
            some kept := by
          rw [childAt_insert]
          rfl
        rw [valueAt?_inside after, same, valueAt?_behind]
      · exact valueAt?_congr (find?_insert_of_ne s _ hf others)
  | inside container step ih =>
    refine valueAt?_insert_inside container ?_
    rintro second others rfl
    refine ih ?_ fun hc => hne (congrArg (_ :: ·) hc)
    rw [same, membersAt?, find?_inside container, membersAt?]
  | enumerator found integral added => cases integral

/-! ## Modifying -/

/-- An enumeration in the place of another one leaves every value. -/
theorem valueAt?_modifyAt {e e' : Enumeration}
    (h : modifyAt? (fun _ => .enumeration e') path s = some s')
    (found : enumerationAt? path s = some e) (other : List Text) :
    valueAt? other s' = valueAt? other s := by
  induction path generalizing s s' other with
  | nil => cases h
  | cons component path ih =>
    cases path with
    | nil =>
      obtain ⟨entry, hg, hs⟩ := Option.bind_eq_some_iff.1 h
      cases hs
      have here : s.get? component = some (.enumeration e) := by
        cases entry <;>
          simp [enumerationAt?, find?, hg, Found.stored?, Entry.enumeration?] at found
        rw [hg, found]
      exact valueAt?_insert_enumeration here e' other
    | cons next rest =>
      obtain ⟨child, members, members', hg, declared, step, rfl⟩ := modifyAt?_eq_some_iff.1 h
      obtain rfl := childAt_of_get? hg
      refine valueAt?_insert_inside declared fun second others _ => ih step ?_ _
      rwa [enumerationAt?, ← find?_inside declared]

/-- An enumerator more leaves every value. -/
theorem valueAt?_addEnumerator {name enumerator : Text} {value : Int}
    (h : s.addEnumerator? name enumerator value = some (.ok s')) (other : List Text) :
    valueAt? other s' = valueAt? other s := by
  obtain ⟨e, e', he, -, changed⟩ := modifyAt?_of_addEnumerator h
  exact valueAt?_modifyAt changed he other

end ConstantDump.Scope
