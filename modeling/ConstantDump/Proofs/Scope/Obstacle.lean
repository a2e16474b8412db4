import ConstantDump.Proofs.Scope.Store

/-!
When an assignment fails. `Obstacle` says what stands in the way of an entry, in terms of
what is found along the beginnings of the path.

* `obstacle_inside`: behind a scope or record, the obstacles are those among its members;
* `assign_error_iff`: an assignment fails exactly when there is an obstacle, with the error
  that belongs to it, and leaves the scope as it is.
-/

namespace ConstantDump.Scope

/-- Whether an entry ends the way of an assignment with this many components to go. An
enumeration takes one more component, a value none. -/
def blocks (ahead : Nat) : Entry → Bool
  | .value _ => 0 < ahead
  | .enumeration _ => 1 < ahead
  | .record _ _ => false
  | .scope _ => false

/-- What stands in the way of assigning an entry along the components, with the error that it
causes. -/
inductive Obstacle (name : Text) (entry : Entry) (path : List Text) (s : Scope) :
    ScopeError → Prop
  /-- The components lead past an entry that has no members. -/
  | notAScope {before after : List Text} {component : Text} {obstacle : Entry}
      (way : path = before ++ component :: after)
      (found : find? (before ++ [component]) s = some (.entry obstacle))
      (ends : blocks after.length obstacle = true) :
      Obstacle name entry path s (.notAScope name component obstacle.kind)
  /-- The place is an enumerator's, and the entry has no integer. -/
  | notIntegral {e : Enumeration} (found : parentEnumeration? path s = some e)
      (integral : entry.integral? = none) :
      Obstacle name entry path s (.notIntegral name entry.kind)
  /-- The place is an enumerator's, and the last component cannot be its name. -/
  | invalidName {e : Enumeration} {enumerator : Text} {value : Int}
      (found : parentEnumeration? path s = some e) (integral : entry.integral? = some value)
      (last : path.getLast? = some enumerator)
      (invalid : Name.isIdentifier enumerator = false) :
      Obstacle name entry path s (.enumeration (.invalidName enumerator))

variable {name component next : Text} {entry : Entry} {rest : List Text} {s : Scope}
variable {error : ScopeError}

/-! ## One component on -/

theorem blocks_of_members? {container : Entry} {members : Scope} (ahead : Nat)
    (h : container.members? = some members) : blocks ahead container = false := by
  cases container <;> simp [Entry.members?] at h <;> rfl

theorem find?_singleton {obstacle : Entry}
    (h : find? [component] s = some (.entry obstacle)) : s.childAt component = obstacle := by
  obtain ⟨entry, found, same⟩ := Option.map_eq_some_iff.1 h
  cases same
  exact childAt_of_get? found

theorem find?_inside_concat {members : Scope} (h : (s.childAt component).members? = some members)
    (before : List Text) (last : Text) :
    find? (component :: (before ++ [last])) s = find? (before ++ [last]) members := by
  cases before with
  | nil => exact find?_inside h last []
  | cons first before => exact find?_inside h first (before ++ [last])

/-- Behind a scope or record, what stands in the way stands among its members. -/
theorem obstacle_inside {members : Scope}
    (h : (s.childAt component).members? = some members) :
    Obstacle name entry (component :: next :: rest) s error ↔
      Obstacle name entry (next :: rest) members error := by
  constructor
  · intro obstacle
    cases obstacle with
    | @notAScope before after last obstacle way found ends =>
      cases before with
      | nil =>
        obtain ⟨rfl, rfl⟩ : component = last ∧ next :: rest = after := by simpa using way
        have here := find?_singleton found
        rw [← here, blocks_of_members? _ h] at ends
        cases ends
      | cons first before =>
        obtain ⟨rfl, onward⟩ : component = first ∧ next :: rest = before ++ last :: after := by
          simpa using way
        rw [List.cons_append, find?_inside_concat h] at found
        exact .notAScope onward found ends
    | notIntegral found integral =>
      rw [parentEnumeration?_inside h] at found
      exact .notIntegral found integral
    | invalidName found integral last invalid =>
      rw [parentEnumeration?_inside h] at found
      rw [List.getLast?_cons_cons] at last
      exact .invalidName found integral last invalid
  · intro obstacle
    cases obstacle with
    | @notAScope before after last obstacle way found ends =>
      have found' : find? (component :: before ++ [last]) s = some (.entry obstacle) := by
        rw [List.cons_append, find?_inside_concat h]
        exact found
      exact .notAScope (by rw [way]; rfl) found' ends
    | notIntegral found integral =>
      refine .notIntegral (e := ‹_›) ?_ integral
      rw [parentEnumeration?_inside h]
      exact found
    | invalidName found integral last invalid =>
      refine .invalidName (e := ‹_›) ?_ integral ?_ invalid
      · rw [parentEnumeration?_inside h]
        exact found
      · rw [List.getLast?_cons_cons]
        exact last

/-- Nothing is found past an entry without members but the enumerators of an enumeration. -/
theorem find?_past {child : Entry} (hg : s.get? component = some child)
    (hm : child.members? = none) {path : List Text} (hp : path ≠ []) (obstacle : Entry) :
    find? (component :: path) s ≠ some (.entry obstacle) := by
  obtain ⟨next, rest, rfl⟩ := List.exists_cons_of_ne_nil hp
  cases child with
  | value v => simp [find?, hg]
  | enumeration e =>
    simp only [find?, hg]
    split
    · cases e.valueOf? next <;> simp
    · simp
  | record r members => cases hm
  | scope members => cases hm

/-- The place is an enumerator's only when the enumeration is the last but one on the way. -/
theorem parentEnumeration?_past {child : Entry} {e : Enumeration}
    (hg : s.get? component = some child) (hm : child.members? = none)
    (found : parentEnumeration? (component :: next :: rest) s = some e) :
    rest = [] ∧ child = .enumeration e := by
  cases rest with
  | nil =>
    refine ⟨rfl, ?_⟩
    have same : child.enumeration? = some e := by
      simpa [parentEnumeration?, enumerationAt?, find?, hg, Found.stored?] using found
    cases child <;> cases same
    rfl
  | cons third rest =>
    exfalso
    obtain ⟨entry, stored, -⟩ := Option.bind_eq_some_iff.1 found
    obtain ⟨place, there, is_entry⟩ := Option.bind_eq_some_iff.1 stored
    cases place with
    | enumerator n => cases is_entry
    | entry obstacle => exact find?_past hg hm (by simp) obstacle there

theorem assignEnumerator_error_iff {e : Enumeration} {enumerator : Text} :
    assignEnumerator name entry e enumerator = .error error ↔
      (entry.integral? = none ∧ error = .notIntegral name entry.kind) ∨
        (∃ value, entry.integral? = some value) ∧ Name.isIdentifier enumerator = false ∧
          error = .enumeration (.invalidName enumerator) := by
  unfold assignEnumerator Enumeration.insert
  constructor
  · intro refused
    cases hi : entry.integral? with
    | none =>
      rw [hi] at refused
      cases refused
      exact .inl ⟨rfl, rfl⟩
    | some value =>
      simp only [hi] at refused
      split at refused
      · cases refused
      · rename_i invalid
        cases refused
        exact .inr ⟨⟨value, rfl⟩, by simpa using invalid, rfl⟩
  · rintro (⟨integral, rfl⟩ | ⟨⟨value, integral⟩, invalid, rfl⟩)
    · rw [integral]
    · simp only [integral, invalid]
      rfl

/-- The way ends at its first component when that has no members: there, or right behind it
when it is an enumeration. -/
theorem obstacle_at {child : Entry} (hg : s.get? component = some child)
    (hm : child.members? = none) :
    Obstacle name entry (component :: next :: rest) s error ↔
      (blocks (rest.length + 1) child = true ∧
          error = .notAScope name component child.kind) ∨
        rest = [] ∧ ∃ e, child = .enumeration e ∧
          assignEnumerator name entry e next = .error error := by
  constructor
  · intro obstacle
    cases obstacle with
    | @notAScope before after last obstacle way found ends =>
      cases before with
      | nil =>
        obtain ⟨rfl, rfl⟩ : component = last ∧ next :: rest = after := by simpa using way
        have here := find?_singleton found
        rw [childAt_of_get? hg] at here
        subst here
        exact .inl ⟨ends, rfl⟩
      | cons first before =>
        obtain ⟨rfl, -⟩ : component = first ∧ next :: rest = before ++ last :: after := by
          simpa using way
        exact absurd found (find?_past hg hm (by simp) obstacle)
    | notIntegral found integral =>
      obtain ⟨rfl, he⟩ := parentEnumeration?_past hg hm found
      exact .inr ⟨rfl, _, he, assignEnumerator_error_iff.2 (.inl ⟨integral, rfl⟩)⟩
    | invalidName found integral last invalid =>
      obtain ⟨rfl, he⟩ := parentEnumeration?_past hg hm found
      obtain rfl : next = _ := by simpa using last
      exact .inr ⟨rfl, _, he,
        assignEnumerator_error_iff.2 (.inr ⟨⟨_, integral⟩, invalid, rfl⟩)⟩
  · rintro (⟨ends, rfl⟩ | ⟨rfl, e, rfl, refused⟩)
    · have way : component :: next :: rest = [] ++ component :: (next :: rest) := rfl
      refine .notAScope way ?_ ends
      simp [find?, hg]
    · have found : parentEnumeration? [component, next] s = some e := by
        simp [parentEnumeration?, enumerationAt?, find?, hg, Found.stored?,
          Entry.enumeration?]
      rcases assignEnumerator_error_iff.1 refused with
        ⟨integral, rfl⟩ | ⟨⟨value, integral⟩, invalid, rfl⟩
      · exact .notIntegral found integral
      · exact .invalidName found integral rfl invalid

/-! ## The whole way -/

theorem assignAt_error_iff {path : List Text} :
    (assignAt name entry path s).2 = .error error ↔ Obstacle name entry path s error := by
  induction path generalizing s with
  | nil =>
    constructor
    · intro h
      cases h
    · intro obstacle
      cases obstacle with
      | notAScope way => simp at way
      | notIntegral found => simp [parentEnumeration?, enumerationAt?, find?] at found
      | invalidName found => simp [parentEnumeration?, enumerationAt?, find?] at found
  | cons component path ih =>
    cases path with
    | nil =>
      constructor
      · intro h
        cases h
      · intro obstacle
        cases obstacle with
        | @notAScope before after last obstacle way found ends =>
          have no_more : after = [] := by
            cases before <;> simp_all
          subst no_more
          cases obstacle <;> simp [blocks] at ends
        | notIntegral found => simp [parentEnumeration?, enumerationAt?, find?] at found
        | invalidName found => simp [parentEnumeration?, enumerationAt?, find?] at found
    | cons next rest =>
      cases hm : (s.childAt component).members? with
      | some members =>
        rw [assignAt_inside hm, obstacle_inside hm]
        exact ih
      | none =>
        have hg := get?_of_members?_eq_none hm
        rw [obstacle_at hg hm]
        cases hc : s.childAt component with
        | scope members => rw [hc] at hm; cases hm
        | record r members => rw [hc] at hm; cases hm
        | value v =>
          rw [hc] at hg
          have kind : (Entry.value v).kind = v.kind := rfl
          simp [assignAt, hg, blocks, kind, eq_comm]
        | enumeration e =>
          rw [hc] at hg
          cases rest with
          | nil =>
            cases ha : assignEnumerator name entry e next <;>
              simp [assignAt, hg, blocks, ha]
          | cons third rest => simp [assignAt, hg, blocks, eq_comm]

/-- An assignment fails exactly when something stands in its way, with the error that belongs
to it. The scope is then what it was: no scope on the way has been created and no enumeration
changed. -/
theorem assign_error_iff {s s' : Scope} {name : Text} {entry : Entry} {error : ScopeError} :
    s.assign name entry = (s', .error error) ↔
      s' = s ∧ Obstacle name entry (Name.path name) s error := by
  rw [← assignAt_error_iff]
  constructor
  · intro h
    exact ⟨assignAt_error h, congrArg Prod.snd h⟩
  · rintro ⟨rfl, h⟩
    have same : (assignAt name entry (Name.path name) s').1 = s' :=
      assignAt_error (Prod.ext rfl h)
    exact Prod.ext same h

end ConstantDump.Scope
