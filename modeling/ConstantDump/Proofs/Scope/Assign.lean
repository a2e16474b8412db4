import ConstantDump.Scope.Update

/-!
What an assignment does to a scope. `Assigned` says once which steps a successful
assignment takes; the statements about look-ups and about order are inductions on it.

* `assigned_of_ok`: an assignment that succeeds takes these steps;
* `Assigned.find?_self`: what is found along the assigned components afterwards;
* `Assigned.find?_of_not_prefix`: look-ups along independent components are kept;
* `Assigned.namesAt_eq`: the order of the names at every place on the way;
* `assignAt_error`: an assignment that fails changes nothing.
-/

namespace ConstantDump

namespace Entry

theorem members?_withMembers {container : Entry} {members : Scope}
    (h : container.members? = some members) (other : Scope) :
    (container.withMembers other).members? = some other := by
  cases container <;> simp [members?] at h <;> rfl

/-- What has no members is a value or an enumeration. -/
theorem of_members?_eq_none {entry : Entry} (h : entry.members? = none) :
    (∃ v, entry = .value v) ∨ ∃ e, entry = .enumeration e := by
  cases entry <;> simp [members?] at h <;> simp

theorem enumeration?_of_members? {container : Entry} {members : Scope}
    (h : container.members? = some members) : container.enumeration? = none := by
  cases container <;> simp [members?] at h <;> rfl

theorem withMembers_self {container : Entry} {members : Scope}
    (h : container.members? = some members) : container.withMembers members = container := by
  cases container <;> simp [members?] at h <;> simp [withMembers, h]

end Entry

namespace Scope

/-! ## Look-ups through a container -/

/-- What an assignment finds under a component; a missing one counts as an empty
scope. -/
def childAt (s : Scope) (component : Text) : Entry :=
  (s.get? component).getD (.scope .empty)

theorem childAt_of_get? {s : Scope} {component : Text} {entry : Entry}
    (h : s.get? component = some entry) : s.childAt component = entry := by
  simp [childAt, h]

theorem childAt_insert (s : Scope) (component : Text) (entry : Entry) :
    childAt (s.insert component entry) component = entry :=
  childAt_of_get? (OrderedMap.get?_insert_self ..)

theorem childAt_insert_of_ne (entry : Entry) {component other : Text} (h : component ≠ other)
    (s : Scope) : childAt (s.insert other entry) component = s.childAt component := by
  simp [childAt, OrderedMap.get?_insert_of_ne s entry h]

/-- What has no members is no missing entry. -/
theorem get?_of_members?_eq_none {s : Scope} {component : Text}
    (h : (s.childAt component).members? = none) :
    s.get? component = some (s.childAt component) := by
  cases hg : s.get? component with
  | none => simp [childAt, hg, Entry.members?] at h
  | some entry => rw [childAt_of_get? hg]

theorem get?_of_childAt_enumeration {s : Scope} {component : Text} {e : Enumeration}
    (h : s.childAt component = .enumeration e) :
    s.get? component = some (.enumeration e) := by
  rw [← h]
  exact get?_of_members?_eq_none (by rw [h]; rfl)

/-- The members that a step inside a container leaves are those found in it. -/
theorem members?_childAt_insert {s members : Scope} {component : Text}
    (h : (s.childAt component).members? = some members) (members' : Scope) :
    (childAt (s.insert component ((s.childAt component).withMembers members'))
      component).members? = some members' := by
  rw [childAt_insert]
  exact Entry.members?_withMembers h members'

@[simp] theorem find?_empty (path : List Text) : find? path .empty = none := by
  match path with
  | [] => rfl
  | [_] => rfl
  | _ :: _ :: _ => rfl

/-- What is found behind a component depends only on the entry under it. -/
theorem find?_cons_congr {s t : Scope} {component : Text}
    (h : s.get? component = t.get? component) (rest : List Text) :
    find? (component :: rest) s = find? (component :: rest) t := by
  cases rest with
  | nil => simp [find?, h]
  | cons next rest => simp [find?, h]

theorem find?_insert_of_ne (s : Scope) (entry : Entry) {first component : Text}
    (h : first ≠ component) (others : List Text) :
    find? (first :: others) (s.insert component entry) = find? (first :: others) s :=
  find?_cons_congr (OrderedMap.get?_insert_of_ne s entry h) others

/-- What does not lead through a component is kept when that takes an entry. -/
theorem find?_insert_elsewhere (s : Scope) (entry : Entry) {component : Text} {other : List Text}
    (h : ¬ [component] <+: other) : find? other (s.insert component entry) = find? other s := by
  cases other with
  | nil => rfl
  | cons first others =>
    have hne : first ≠ component := by
      rintro rfl
      exact h (List.cons_prefix_cons.2 ⟨rfl, List.nil_prefix⟩)
    exact find?_insert_of_ne s entry hne others

/-- Through a scope or record, the way goes on among its members. -/
theorem find?_inside {s members : Scope} {component : Text}
    (h : (s.childAt component).members? = some members) (next : Text) (rest : List Text) :
    find? (component :: next :: rest) s = find? (next :: rest) members := by
  cases hg : s.get? component with
  | none =>
    have hm : members = .empty := by simpa [childAt, hg, Entry.members?] using h.symm
    simp [find?, hg, hm]
  | some entry =>
    rw [childAt_of_get? hg] at h
    cases entry <;> simp [Entry.members?] at h <;> simp [find?, hg, h]

/-- A change behind a component is one among the members there. -/
theorem modifyAt?_eq_some_iff {f : Entry → Entry} {component next : Text} {rest : List Text}
    {s s' : Scope} :
    modifyAt? f (component :: next :: rest) s = some s' ↔
      ∃ child members members', s.get? component = some child ∧ child.members? = some members ∧
        modifyAt? f (next :: rest) members = some members' ∧
        s.insert component (child.withMembers members') = s' := by
  constructor
  · intro h
    unfold modifyAt? at h
    split at h
    · rename_i members found
      obtain ⟨members', changed, result⟩ := Option.bind_eq_some_iff.1 h
      cases result
      exact ⟨_, members, members', found, rfl, changed, rfl⟩
    · rename_i record members found
      obtain ⟨members', changed, result⟩ := Option.bind_eq_some_iff.1 h
      cases result
      exact ⟨_, members, members', found, rfl, changed, rfl⟩
    · cases h
  · rintro ⟨child, members, members', found, declared, changed, rfl⟩
    cases child <;> cases declared <;> simp [modifyAt?, found, changed, Entry.withMembers]

/-! ## The steps of an assignment -/

/-- The steps of an assignment that succeeds: along the components, from the scope
before it to the scope after it. -/
inductive Assigned (entry : Entry) : List Text → Scope → Scope → Prop
  /-- The last component takes the entry. -/
  | last (component : Text) (s : Scope) :
      Assigned entry [component] s (s.insert component entry)
  /-- The way goes on among the members of a scope or record, or of a new scope. -/
  | inside {component next : Text} {rest : List Text} {s members members' : Scope}
      (container : (s.childAt component).members? = some members)
      (step : Assigned entry (next :: rest) members members') :
      Assigned entry (component :: next :: rest) s
        (s.insert component ((s.childAt component).withMembers members'))
  /-- The last component is an enumerator of the enumeration before it. -/
  | enumerator {component name : Text} {s : Scope} {e e' : Enumeration} {value : Int}
      (found : s.get? component = some (.enumeration e))
      (integral : entry.integral? = some value) (added : e.insert name value = .ok e') :
      Assigned entry [component, name] s (s.insert component (.enumeration e'))

theorem assignEnumerator_ok_iff {name : Text} {entry : Entry} {e e' : Enumeration}
    {enumerator : Text} :
    assignEnumerator name entry e enumerator = .ok e' ↔
      ∃ value, entry.integral? = some value ∧ e.insert enumerator value = .ok e' := by
  constructor
  · intro h
    unfold assignEnumerator at h
    split at h
    · cases h
    · rename_i value integral
      refine ⟨value, integral, ?_⟩
      cases added : e.insert enumerator value with
      | error error => rw [added] at h; cases h
      | ok e'' => rw [added] at h; cases h; rfl
  · rintro ⟨value, integral, added⟩
    simp only [assignEnumerator, integral, added]
    rfl

/-- Through a scope or record, an assignment changes only its members. -/
theorem assignAt_inside {s members : Scope} {component : Text}
    (h : (s.childAt component).members? = some members) (name : Text) (entry : Entry)
    (next : Text) (rest : List Text) :
    assignAt name entry (component :: next :: rest) s =
      (s.insert component
          ((s.childAt component).withMembers (assignAt name entry (next :: rest) members).1),
        (assignAt name entry (next :: rest) members).2) := by
  unfold childAt at h ⊢
  cases hc : (s.get? component).getD (.scope .empty) <;> simp [hc, Entry.members?] at h <;>
    simp [assignAt, hc, h, Entry.withMembers]

/-- An assignment that ends well ended at the last component, or went on inside, or
ended at an enumerator. -/
theorem assignAt_ok_cases {name : Text} {entry : Entry} {component next : Text}
    {rest : List Text} {s s' : Scope}
    (h : assignAt name entry (component :: next :: rest) s = (s', .ok ())) :
    (∃ members, (s.childAt component).members? = some members) ∨
      ∃ e e', rest = [] ∧ s.childAt component = .enumeration e ∧
        assignEnumerator name entry e next = .ok e' ∧
        s' = s.insert component (.enumeration e') := by
  cases hc : s.childAt component with
  | scope members => exact .inl ⟨members, rfl⟩
  | record r members => exact .inl ⟨members, rfl⟩
  | value v =>
    unfold childAt at hc
    simp [assignAt, hc] at h
  | enumeration e =>
    unfold childAt at hc
    simp only [assignAt, hc] at h
    split at h
    · rename_i hr
      split at h
      · rename_i e' ha
        simp only [Prod.mk.injEq, and_true] at h
        exact .inr ⟨e, e', hr, rfl, ha, h.symm⟩
      · simp at h
    · simp at h

theorem assigned_of_ok {name : Text} {entry : Entry} {path : List Text} {s s' : Scope}
    (hp : path ≠ []) (h : assignAt name entry path s = (s', .ok ())) :
    Assigned entry path s s' := by
  induction path generalizing s s' with
  | nil => exact absurd rfl hp
  | cons component path ih =>
    cases path with
    | nil =>
      simp only [assignAt, Prod.mk.injEq, and_true] at h
      exact h ▸ .last component s
    | cons next rest =>
      rcases assignAt_ok_cases h with ⟨members, hm⟩ | ⟨e, e', hr, hc, ha, hs⟩
      · rw [assignAt_inside hm] at h
        simp only [Prod.mk.injEq] at h
        have step := ih (by simp) (Prod.ext rfl h.2)
        exact h.1 ▸ .inside hm step
      · obtain ⟨value, hv, he⟩ := assignEnumerator_ok_iff.1 ha
        rw [hr, hs]
        exact .enumerator (get?_of_childAt_enumeration hc) hv he

/-! ## What is found afterwards -/

def enumerationAt? (path : List Text) (s : Scope) : Option Enumeration :=
  find? path s >>= Found.stored? >>= Entry.enumeration?

/-- The enumeration that the components before the last one lead to, if they do. -/
def parentEnumeration? (path : List Text) (s : Scope) : Option Enumeration :=
  enumerationAt? path.dropLast s

theorem parentEnumeration?_inside {s members : Scope} {component : Text}
    (h : (s.childAt component).members? = some members) (next : Text) (rest : List Text) :
    parentEnumeration? (component :: next :: rest) s =
      parentEnumeration? (next :: rest) members := by
  cases rest with
  | cons third rest =>
    simp only [parentEnumeration?, enumerationAt?, List.dropLast_cons_cons]
    rw [find?_inside h]
  | nil =>
    cases hg : s.get? component with
    | none => simp [parentEnumeration?, enumerationAt?, find?, hg]
    | some entry =>
      rw [childAt_of_get? hg] at h
      simp [parentEnumeration?, enumerationAt?, find?, hg, Found.stored?,
        Entry.enumeration?_of_members? h]

/-- The last component finds the entry, or the integer of the entry where it is an
enumerator. -/
theorem Assigned.find?_self {entry : Entry} {path : List Text} {s s' : Scope}
    (h : Assigned entry path s s') :
    find? path s' = match parentEnumeration? path s with
      | none => some (.entry entry)
      | some _ => entry.integral?.map .enumerator := by
  induction h with
  | last component s =>
    have hp : parentEnumeration? [component] s = none := by
      simp [parentEnumeration?, enumerationAt?, find?]
    rw [hp]
    simp [find?]
  | @inside component next rest s members members' container step ih =>
    rw [parentEnumeration?_inside container, ← ih]
    exact find?_inside (members?_childAt_insert container members') next rest
  | @enumerator component name s e e' value found integral added =>
    have hp : parentEnumeration? [component, name] s = some e := by
      simp [parentEnumeration?, enumerationAt?, find?, found, Found.stored?, Entry.enumeration?]
    have hv : e'.valueOf? name = some value := by
      unfold Enumeration.insert at added
      split at added
      · cases added
        exact OrderedMap.get?_insert_self ..
      · cases added
    rw [hp]
    simp [find?, hv, integral]

/-- Where an enumerator is assigned, the entry has an integer. -/
theorem Assigned.integral {entry : Entry} {path : List Text} {s s' : Scope} {e : Enumeration}
    (h : Assigned entry path s s') (hp : parentEnumeration? path s = some e) :
    ∃ value, entry.integral? = some value := by
  induction h with
  | last component s => simp [parentEnumeration?, enumerationAt?, find?] at hp
  | inside container step ih =>
    rw [parentEnumeration?_inside container] at hp
    exact ih hp
  | enumerator found integral added => exact ⟨_, integral⟩

/-- An entry without an integer is assigned as itself. -/
theorem Assigned.find?_entry {entry : Entry} {path : List Text} {s s' : Scope}
    (h : Assigned entry path s s') (no_integer : entry.integral? = none) :
    find? path s' = some (.entry entry) := by
  have found := h.find?_self
  cases hp : parentEnumeration? path s with
  | none => rwa [hp] at found
  | some e =>
    obtain ⟨value, integral⟩ := h.integral hp
    rw [no_integer] at integral
    cases integral

theorem valueOf?_insert_of_ne {e e' : Enumeration} {name other : Text} {value : Int}
    (h : e.insert name value = .ok e') (hn : other ≠ name) :
    e'.valueOf? other = e.valueOf? other := by
  unfold Enumeration.insert at h
  split at h
  · cases h
    exact OrderedMap.get?_insert_of_ne _ _ hn
  · cases h

/-- What independent components find is kept: neither of the two ways goes on where the
other one ends. -/
theorem Assigned.find?_of_not_prefix {entry : Entry} {path other : List Text} {s s' : Scope}
    (h : Assigned entry path s s') (hp : ¬ path <+: other) (ho : ¬ other <+: path) :
    find? other s' = find? other s := by
  induction h generalizing other with
  | last component s => exact find?_insert_elsewhere s entry hp
  | @inside component next rest s members members' container step ih =>
    cases other with
    | nil => exact absurd List.nil_prefix ho
    | cons first others =>
      by_cases hne : first = component
      · subst hne
        cases others with
        | nil => exact absurd (List.cons_prefix_cons.2 ⟨rfl, List.nil_prefix⟩) ho
        | cons second others =>
          rw [find?_inside (members?_childAt_insert container members'), find?_inside container]
          refine ih (fun hc => hp ?_) (fun hc => ho ?_)
          · exact List.cons_prefix_cons.2 ⟨rfl, hc⟩
          · exact List.cons_prefix_cons.2 ⟨rfl, hc⟩
      · exact find?_insert_of_ne s _ hne others
  | @enumerator component name s e e' value found integral added =>
    cases other with
    | nil => exact absurd List.nil_prefix ho
    | cons first others =>
      by_cases hne : first = component
      · subst hne
        cases others with
        | nil => exact absurd (List.cons_prefix_cons.2 ⟨rfl, List.nil_prefix⟩) ho
        | cons second others =>
          have hn : second ≠ name := by
            rintro rfl
            exact hp (by simp [List.cons_prefix_cons])
          simp [find?, found, valueOf?_insert_of_ne added hn]
      · exact find?_insert_of_ne s _ hne others

/-! ## Order -/

/-- The names, in order, of the scope, record or enumeration that the components lead
to; none where they lead to nothing that has names. -/
def namesAt : List Text → Scope → List Text
  | [], s => s.keys
  | component :: rest, s =>
    match find? (component :: rest) s with
    | some (.entry (.scope members)) => members.keys
    | some (.entry (.record _ members)) => members.keys
    | some (.entry (.enumeration e)) => e.items.keys
    | _ => []

/-- The names with one more: it stays where it is, or comes last when it is new. -/
def withName (names : List Text) (name : Text) : List Text :=
  if name ∈ names then names else names ++ [name]

theorem namesAt_inside {s members : Scope} {component : Text}
    (h : (s.childAt component).members? = some members) (path : List Text) :
    namesAt (component :: path) s = namesAt path members := by
  cases path with
  | cons next rest => simp only [namesAt, find?_inside h]
  | nil =>
    cases hg : s.get? component with
    | none =>
      have hm : members = .empty := by simpa [childAt, hg, Entry.members?] using h.symm
      simp [namesAt, find?, hg, hm, OrderedMap.keys, OrderedMap.empty]
    | some entry =>
      rw [childAt_of_get? hg] at h
      cases entry <;> simp [Entry.members?] at h <;> simp [namesAt, find?, hg, h]

/-- At every place on the way the names keep their order and their places; the
component assigned there comes last when it is new. -/
theorem Assigned.namesAt_eq {entry : Entry} {path before after : List Text} {name : Text}
    {s s' : Scope} (h : Assigned entry path s s') (hp : path = before ++ name :: after) :
    namesAt before s' = withName (namesAt before s) name := by
  induction h generalizing before with
  | last component s =>
    cases before with
    | nil =>
      obtain ⟨rfl, rfl⟩ : component = name ∧ [] = after := by simpa using hp
      exact OrderedMap.keys_insert s component entry
    | cons first before => simp at hp
  | @inside component next rest s members members' container step ih =>
    cases before with
    | nil =>
      obtain ⟨rfl, -⟩ : component = name ∧ _ := by simpa using hp
      exact OrderedMap.keys_insert s component _
    | cons first before =>
      obtain ⟨rfl, hrest⟩ : component = first ∧ next :: rest = before ++ name :: after := by
        simpa using hp
      rw [namesAt_inside container, ← ih hrest]
      exact namesAt_inside (members?_childAt_insert container members') before
  | @enumerator component enumerator s e e' value found integral added =>
    match before with
    | [] =>
      obtain ⟨rfl, -⟩ : component = name ∧ _ := by simpa using hp
      exact OrderedMap.keys_insert s component _
    | [first] =>
      obtain ⟨rfl, rfl, rfl⟩ : component = first ∧ enumerator = name ∧ [] = after := by
        simpa using hp
      have hk : e'.items.keys = withName e.items.keys enumerator := by
        unfold Enumeration.insert at added
        split at added
        · cases added
          exact OrderedMap.keys_insert ..
        · cases added
      simpa [namesAt, find?, found] using hk
    | first :: second :: before => simp at hp

/-! ## Failure -/

/-- Inside an empty scope every assignment succeeds. -/
theorem assignAt_empty (name : Text) (entry : Entry) (path : List Text) :
    (assignAt name entry path .empty).2 = .ok () := by
  match path with
  | [] => rfl
  | [component] => rfl
  | component :: next :: rest =>
    have hm : (childAt .empty component).members? = some .empty := rfl
    rw [assignAt_inside hm]
    exact assignAt_empty name entry (next :: rest)

/-- An assignment that fails leaves the scope as it is. A new scope on the way is never
left behind, since nothing fails inside it. -/
theorem assignAt_error {name : Text} {entry : Entry} {path : List Text} {s s' : Scope}
    {error : ScopeError} (h : assignAt name entry path s = (s', .error error)) : s' = s := by
  induction path generalizing s s' with
  | nil => simp [assignAt] at h
  | cons component path ih =>
    cases path with
    | nil => simp [assignAt] at h
    | cons next rest =>
      cases hm : (s.childAt component).members? with
      | none =>
        unfold childAt at hm
        cases hc : (s.get? component).getD (.scope .empty) with
        | scope members => simp [hc, Entry.members?] at hm
        | record r members => simp [hc, Entry.members?] at hm
        | value v =>
          simp only [assignAt, hc, Prod.mk.injEq] at h
          exact h.1.symm
        | enumeration e =>
          simp only [assignAt, hc] at h
          split at h
          · split at h
            · simp at h
            · exact (Prod.mk.inj h).1.symm
          · exact (Prod.mk.inj h).1.symm
      | some members =>
        rw [assignAt_inside hm] at h
        obtain ⟨hs, he⟩ := Prod.mk.inj h
        have hmem : (assignAt name entry (next :: rest) members).1 = members :=
          ih (Prod.ext rfl he)
        have hg : s.get? component = some (s.childAt component) := by
          cases hg : s.get? component with
          | some child => rw [childAt_of_get? hg]
          | none =>
            have : members = .empty := by simpa [childAt, hg, Entry.members?] using hm.symm
            rw [this, assignAt_empty] at he
            cases he
        rw [← hs, hmem, Entry.withMembers_self hm]
        exact OrderedMap.insert_of_get?_eq_some hg

end Scope

end ConstantDump
