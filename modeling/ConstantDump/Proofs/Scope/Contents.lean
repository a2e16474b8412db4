import ConstantDump.Proofs.Scope.Obstacle
import ConstantDump.Proofs.Scope.Value

/-!
The entries of a scope at any depth, with the keys that lead to them.

* `Holds`: an entry among the entries of a scope, or inside one of them, and what becomes of it
  when something is inserted (`Holds.of_insert`);
* `WellNamed`: no scope has a name twice; assignments keep that, and then a look-up along its
  keys finds each entry (`Holds.find?_eq`);
* `Assigned.find?_cases`: where the entries after an assignment come from.
-/

namespace ConstantDump

namespace OrderedMap

variable {α : Type} {m : OrderedMap α}

theorem mem_of_get? {key : Text} {value : α} (h : m.get? key = some value) :
    (key, value) ∈ m.entries := by
  obtain ⟨entries⟩ := m
  simp only [get?] at h ⊢
  induction entries with
  | nil => cases h
  | cons entry rest ih =>
    by_cases hk : entry.1 = key
    · obtain rfl : entry.2 = value := by simpa [findIn, hk] using h
      exact hk ▸ List.mem_cons_self
    · simp only [findIn, hk, ↓reduceIte] at h
      exact List.mem_cons_of_mem _ (ih h)

theorem Distinct.get?_of_mem (h : m.Distinct) {key : Text} {value : α}
    (mem : (key, value) ∈ m.entries) : m.get? key = some value := by
  obtain ⟨entries⟩ := m
  simp only [Distinct, keys, get?] at h mem ⊢
  induction entries with
  | nil => cases mem
  | cons entry rest ih =>
    obtain ⟨fresh, distinct⟩ := List.nodup_cons.1 h
    rcases List.mem_cons.1 mem with rfl | later
    · simp [findIn]
    · have other : entry.1 ≠ key := by
        rintro rfl
        exact fresh (List.mem_map.2 ⟨_, later, rfl⟩)
      simp only [findIn, other, ↓reduceIte]
      exact ih distinct later

/-- What is in a map after an insertion is the new value, or was there. -/
theorem mem_insert {key other : Text} {value found : α}
    (h : (other, found) ∈ (m.insert key value).entries) :
    (other = key ∧ found = value) ∨ (other, found) ∈ m.entries := by
  obtain ⟨entries⟩ := m
  simp only [insert] at h ⊢
  induction entries with
  | nil => simpa [insertIn] using h
  | cons entry rest ih =>
    by_cases hk : entry.1 = key
    · simp only [insertIn, hk, ↓reduceIte, List.mem_cons, Prod.mk.injEq] at h
      exact h.imp_right (List.mem_cons_of_mem _)
    · simp only [insertIn, hk, ↓reduceIte, List.mem_cons] at h
      rcases h with rfl | later
      · exact .inr List.mem_cons_self
      · exact (ih later).imp_right (List.mem_cons_of_mem _)

end OrderedMap

namespace Scope

/-- An entry at any depth of a scope, with the keys that lead to it. -/
inductive Holds : Scope → List Text → Entry → Prop
  | here {s : Scope} {key : Text} {entry : Entry} (mem : (key, entry) ∈ s.entries) :
      Holds s [key] entry
  | inside {s members : Scope} {key : Text} {container entry : Entry} {path : List Text}
      (mem : (key, container) ∈ s.entries) (declared : container.members? = some members)
      (rest : Holds members path entry) : Holds s (key :: path) entry

/-- No name occurs twice in the scope, nor in the scopes and records inside it. -/
inductive WellNamed : Scope → Prop
  | intro {s : Scope} (distinct : s.Distinct)
      (inside : ∀ key container members, (key, container) ∈ s.entries →
        container.members? = some members → WellNamed members) : WellNamed s

variable {s s' members : Scope} {entry found : Entry} {path other : List Text} {component : Text}

theorem Holds.ne_nil (h : Holds s path entry) : path ≠ [] := by
  cases h <;> simp

theorem WellNamed.distinct (h : WellNamed s) : s.Distinct := by
  cases h with
  | intro distinct inside => exact distinct

theorem WellNamed.inside (h : WellNamed s) {key : Text} {container : Entry}
    (mem : (key, container) ∈ s.entries) (declared : container.members? = some members) :
    WellNamed members := by
  cases h with
  | intro distinct inside => exact inside key container members mem declared

/-- Each entry is found along its keys. -/
theorem Holds.find?_eq (h : Holds s path entry) (names : WellNamed s) :
    find? path s = some (.entry entry) := by
  induction h with
  | here mem => simp [find?, names.distinct.get?_of_mem mem]
  | @inside s members key container entry path mem declared rest ih =>
    obtain ⟨next, others, rfl⟩ := List.exists_cons_of_ne_nil rest.ne_nil
    have child := childAt_of_get? (names.distinct.get?_of_mem mem)
    rw [find?_inside (by rw [child]; exact declared)]
    exact ih (names.inside mem declared)

/-- What is found along components is held under them. -/
theorem holds_of_find? (h : find? path s = some (.entry entry)) : Holds s path entry := by
  induction path generalizing s with
  | nil => cases h
  | cons component path ih =>
    cases path with
    | nil =>
      obtain ⟨found, there, same⟩ := Option.map_eq_some_iff.1 h
      cases same
      exact .here (OrderedMap.mem_of_get? there)
    | cons next rest =>
      cases hg : s.get? component with
      | none => simp [find?, hg] at h
      | some container =>
        cases hm : container.members? with
        | none => exact absurd h (find?_past hg hm (by simp) entry)
        | some members =>
          rw [find?_inside (by rw [childAt_of_get? hg]; exact hm)] at h
          exact .inside (OrderedMap.mem_of_get? hg) hm (ih h)

/-- What a name stands for is held by the scope. -/
theorem holds_of_stored? {name : Text} (h : s.stored? name = some entry) :
    Holds s (Name.path name) entry := by
  obtain ⟨found, there, is_entry⟩ := Option.bind_eq_some_iff.1 h
  cases found with
  | enumerator n => cases is_entry
  | entry e =>
    cases is_entry
    exact holds_of_find? there

/-- What is declared inside a name is nothing, or inside an entry that the scope holds. -/
theorem holds_of_members? (s : Scope) (name : Text) :
    (s.members? name).getD .empty = .empty ∨ ∃ container,
      Holds s (Name.path name) container ∧
        container.members? = some ((s.members? name).getD .empty) := by
  cases declared : s.members? name with
  | none => exact .inl rfl
  | some members =>
    obtain ⟨container, stored, inside⟩ := Option.bind_eq_some_iff.1 declared
    exact .inr ⟨container, holds_of_stored? stored, inside⟩

theorem Holds.append {container : Entry} (h : Holds s path container)
    (declared : container.members? = some members) (rest : Holds members other entry) :
    Holds s (path ++ other) entry := by
  induction h with
  | here mem => exact .inside mem declared rest
  | inside mem around _ ih => exact .inside mem around (ih declared)

/-- What a scope holds after an insertion was there, or is the new entry or inside it. -/
theorem Holds.of_insert (h : Holds (s.insert component entry) path found) :
    Holds s path found ∨ ∃ rest, path = component :: rest ∧
      (rest = [] ∧ found = entry ∨
        ∃ members, entry.members? = some members ∧ Holds members rest found) := by
  cases h with
  | here mem =>
    rcases OrderedMap.mem_insert mem with ⟨rfl, rfl⟩ | old
    · exact .inr ⟨[], rfl, .inl ⟨rfl, rfl⟩⟩
    · exact .inl (.here old)
  | inside mem declared rest =>
    rcases OrderedMap.mem_insert mem with ⟨rfl, rfl⟩ | old
    · exact .inr ⟨_, rfl, .inr ⟨_, declared, rest⟩⟩
    · exact .inl (.inside old declared rest)

/-! ## Names stay distinct -/

theorem wellNamed_empty : WellNamed .empty := .intro List.nodup_nil (by simp [OrderedMap.empty])

theorem WellNamed.of_holds (h : WellNamed s) {container : Entry} (there : Holds s path container)
    (declared : container.members? = some members) : WellNamed members := by
  induction there with
  | here mem => exact h.inside mem declared
  | inside mem around _ ih => exact ih (h.inside mem around) declared

theorem WellNamed.insert (h : WellNamed s)
    (declared : ∀ members, entry.members? = some members → WellNamed members) :
    WellNamed (s.insert component entry) := by
  refine .intro (h.distinct.insert component entry) fun key container members mem inside => ?_
  rcases OrderedMap.mem_insert mem with ⟨rfl, rfl⟩ | old
  · exact declared members inside
  · exact h.inside old inside

theorem WellNamed.childAt (h : WellNamed s)
    (declared : (s.childAt component).members? = some members) : WellNamed members := by
  cases hg : s.get? component with
  | none =>
    have empty : members = .empty := by
      simpa [Scope.childAt, hg, Entry.members?] using declared.symm
    rw [empty]
    exact wellNamed_empty
  | some entry =>
    rw [childAt_of_get? hg] at declared
    exact h.inside (OrderedMap.mem_of_get? hg) declared

theorem Assigned.wellNamed (h : Assigned entry path s s') (names : WellNamed s)
    (declared : ∀ members, entry.members? = some members → WellNamed members) :
    WellNamed s' := by
  induction h with
  | last component s => exact names.insert declared
  | inside container step ih =>
    refine names.insert fun members after => ?_
    rw [Entry.members?_withMembers container] at after
    cases after
    exact ih (names.childAt container)
  | enumerator found integral added =>
    refine names.insert fun members after => ?_
    cases after

/-- The way to an entry goes on inside a scope or record. -/
theorem exists_members_of_find? {next : Text} {rest : List Text}
    (h : find? (component :: next :: rest) s = some (.entry found)) :
    ∃ members, (s.childAt component).members? = some members ∧
      find? (next :: rest) members = some (.entry found) := by
  cases hm : (s.childAt component).members? with
  | some members => exact ⟨members, rfl, by rw [← find?_inside hm, h]⟩
  | none => exact absurd h (find?_past (get?_of_members?_eq_none hm) hm (by simp) found)

theorem membersAt?_eq_some_iff :
    membersAt? path s = some members ↔
      ∃ container, find? path s = some (.entry container) ∧
        container.members? = some members := by
  constructor
  · intro h
    obtain ⟨container, stored, declared⟩ := Option.bind_eq_some_iff.1 h
    obtain ⟨place, there, is_entry⟩ := Option.bind_eq_some_iff.1 stored
    cases place with
    | enumerator n => cases is_entry
    | entry e =>
      cases is_entry
      exact ⟨_, there, declared⟩
  · rintro ⟨container, there, declared⟩
    rw [membersAt?, there]
    exact declared

/-- The names inside what the components lead to are distinct, too. -/
theorem WellNamed.membersAt (h : WellNamed s) (declared : membersAt? path s = some members) :
    WellNamed members := by
  obtain ⟨container, there, inside⟩ := membersAt?_eq_some_iff.1 declared
  induction path generalizing s with
  | nil => cases there
  | cons component path ih =>
    cases path with
    | nil => exact h.childAt (by rw [find?_singleton there]; exact inside)
    | cons next rest =>
      obtain ⟨inner, child, found⟩ := exists_members_of_find? there
      exact ih (h.childAt child) (membersAt?_eq_some_iff.2 ⟨container, found, inside⟩) found

/-- What is found inside the members of a place is found along the whole way. -/
theorem find?_append (declared : membersAt? path s = some members) {inside : List Text}
    (hne : inside ≠ []) : find? (path ++ inside) s = find? inside members := by
  obtain ⟨next, others, rfl⟩ := List.exists_cons_of_ne_nil hne
  obtain ⟨container, there, holds⟩ := membersAt?_eq_some_iff.1 declared
  induction path generalizing s with
  | nil => cases there
  | cons component path ih =>
    cases path with
    | nil => exact find?_inside (by rw [find?_singleton there]; exact holds) next others
    | cons second rest =>
      obtain ⟨inner, child, found⟩ := exists_members_of_find? there
      rw [List.cons_append, List.cons_append, find?_inside child]
      exact ih (membersAt?_eq_some_iff.2 ⟨container, found, holds⟩) found

/-! ## Where entries come from -/

/-- What is found after an assignment was found before as well, or is on the way of the
assignment, or came inside the entry. -/
theorem Assigned.find?_cases (h : Assigned entry path s s')
    (after : find? other s' = some (.entry found)) :
    (∃ old, find? other s = some (.entry old)) ∨ other <+: path ∨
      ∃ inside members, other = path ++ inside ∧ inside ≠ [] ∧
        entry.members? = some members ∧ find? inside members = some (.entry found) := by
  induction h generalizing other with
  | last component s =>
    cases other with
    | nil => cases after
    | cons first others =>
      by_cases hf : first = component
      · subst hf
        cases others with
        | nil => exact .inr (.inl List.prefix_rfl)
        | cons second others =>
          obtain ⟨members, child, rest⟩ := exists_members_of_find? after
          rw [childAt_insert] at child
          exact .inr (.inr ⟨_, members, rfl, by simp, child, rest⟩)
      · rw [find?_insert_of_ne s entry hf] at after
        exact .inl ⟨found, after⟩
  | @inside component next rest s members members' container step ih =>
    cases other with
    | nil => cases after
    | cons first others =>
      by_cases hf : first = component
      · subst hf
        cases others with
        | nil => exact .inr (.inl (List.cons_prefix_cons.2 ⟨rfl, List.nil_prefix⟩))
        | cons second others =>
          rw [find?_inside (members?_childAt_insert container members')] at after
          rw [find?_inside container]
          rcases ih after with old | way | ⟨inside, kept, same, hne, declared, there⟩
          · exact .inl old
          · exact .inr (.inl (List.cons_prefix_cons.2 ⟨rfl, way⟩))
          · exact .inr (.inr ⟨inside, kept, by rw [same]; rfl, hne, declared, there⟩)
      · rw [find?_insert_of_ne s _ hf] at after
        exact .inl ⟨found, after⟩
  | @enumerator component name s e e' value enumeration integral added =>
    cases other with
    | nil => cases after
    | cons first others =>
      by_cases hf : first = component
      · subst hf
        cases others with
        | nil => exact .inr (.inl (List.cons_prefix_cons.2 ⟨rfl, List.nil_prefix⟩))
        | cons second others =>
          -- Behind an enumeration there are only enumerators, and no entries.
          exact absurd after (find?_past (OrderedMap.get?_insert_self ..) rfl (by simp) found)
      · rw [find?_insert_of_ne s _ hf] at after
        exact .inl ⟨found, after⟩

end Scope

end ConstantDump
