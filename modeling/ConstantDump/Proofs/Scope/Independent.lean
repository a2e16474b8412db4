import ConstantDump.Proofs.Scope.Order
import ConstantDump.Proofs.Scope.Overwrite

/-!
Assignments to names of which neither lies inside the other.

* `assignAt_cons`: an assignment changes only the entry under its first component, and what it
  makes of that entry depends on nothing else in the scope;
* `assignAt_comm`: two assignments along independent components may change places: neither tells
  whether the other came first, and what they leave differs only in the order of names.
-/

namespace ConstantDump

/-- Two steps may be taken in either order: each has the result that it has alone, and both
orders end in the same. -/
structure EitherOrder {α β : Type} (same : α → α → Prop) (f g : α → α × β) (x : α) : Prop where
  first : (f (g x).1).2 = (f x).2
  second : (g (f x).1).2 = (g x).2
  both : same (g (f x).1).1 (f (g x).1).1

namespace Scope

/-- The same scope but for the order of names, at every depth. -/
def Rearranged (s t : Scope) : Prop := Entry.RearrangedIn s.entries t.entries

variable {name other : Text} {entry entry' : Entry} {component next : Text} {rest : List Text}

/-! ## One component -/

def withEnumerator (name : Text) (entry : Entry) (enumerator : Text) (e : Enumeration) :
    Enumeration × Except ScopeError Unit :=
  match assignEnumerator name entry e enumerator with
  | .ok e' => (e', .ok ())
  | .error error => (e, .error error)

/-- What an assignment makes of the entry under a component, with the components behind it
still to go. -/
def assignUnder (name : Text) (entry : Entry) (component : Text) :
    List Text → Entry → Entry × Except ScopeError Unit
  | [], _ => (entry, .ok ())
  | next :: rest, .scope members =>
    (.scope (assignAt name entry (next :: rest) members).1,
      (assignAt name entry (next :: rest) members).2)
  | next :: rest, .record record members =>
    (.record record (assignAt name entry (next :: rest) members).1,
      (assignAt name entry (next :: rest) members).2)
  | [enumerator], .enumeration e =>
    (.enumeration (withEnumerator name entry enumerator e).1,
      (withEnumerator name entry enumerator e).2)
  | _ :: _ :: _, .enumeration e =>
    (.enumeration e, .error (.notAScope name component (Entry.enumeration e).kind))
  | _ :: _, .value v => (.value v, .error (.notAScope name component v.kind))

/-- An assignment changes only the entry under its first component. -/
theorem assignAt_cons (name : Text) (entry : Entry) (component : Text) (rest : List Text)
    (s : Scope) :
    assignAt name entry (component :: rest) s =
      (s.insert component (assignUnder name entry component rest (s.childAt component)).1,
        (assignUnder name entry component rest (s.childAt component)).2) := by
  match rest with
  | [] => rfl
  | next :: rest =>
    cases hm : (s.childAt component).members? with
    | some members =>
      rw [assignAt_inside hm]
      cases hc : s.childAt component <;> rw [hc] at hm <;> cases hm <;> rfl
    | none =>
      have found := get?_of_members?_eq_none hm
      have stays := OrderedMap.insert_of_get?_eq_some found
      rcases Entry.of_members?_eq_none hm with ⟨v, hc⟩ | ⟨e, hc⟩
      · rw [hc] at found stays ⊢
        cases rest <;> simp [assignAt, assignUnder, found, stays]
      · rw [hc] at found stays ⊢
        cases rest with
        | nil =>
          cases added : assignEnumerator name entry e next <;>
            simp [assignAt, assignUnder, withEnumerator, found, added, stays]
        | cons third rest => simp [assignAt, assignUnder, found, stays]

/-! ## One enumeration -/

/-- Whether an enumerator can be assigned, and the error if it cannot, does not depend on the
enumeration. -/
theorem withEnumerator_eq (name : Text) (entry : Entry) (enumerator : Text) :
    ∃ (value? : Option Int) (result : Except ScopeError Unit), ∀ e : Enumeration,
      withEnumerator name entry enumerator e =
        (⟨e.name, value?.elim e.items (e.items.insert enumerator)⟩, result) := by
  cases integral : entry.integral? with
  | none =>
    refine ⟨none, .error (.notIntegral name entry.kind), fun e => ?_⟩
    simp [withEnumerator, assignEnumerator, integral]
  | some value =>
    cases valid : Name.isIdentifier enumerator with
    | true =>
      refine ⟨some value, .ok (), fun e => ?_⟩
      simp only [withEnumerator, assignEnumerator, integral, Enumeration.insert, valid]
      rfl
    | false =>
      refine ⟨none, .error (.enumeration (.invalidName enumerator)), fun e => ?_⟩
      simp only [withEnumerator, assignEnumerator, integral, Enumeration.insert, valid]
      rfl

theorem withEnumerator_comm {first second : Text} (h : first ≠ second) (e : Enumeration) :
    EitherOrder (fun e f => Entry.Rearranged (.enumeration e) (.enumeration f))
      (withEnumerator name entry first) (withEnumerator other entry' second) e := by
  obtain ⟨value?, result, one⟩ := withEnumerator_eq name entry first
  obtain ⟨value?', result', two⟩ := withEnumerator_eq other entry' second
  refine ⟨by simp only [one], by simp only [two], ?_⟩
  simp only [one, two]
  refine .enumeration e.name ?_
  cases value? with
  | none => exact .refl _
  | some value =>
    cases value?' with
    | none => exact .refl _
    | some value' => exact OrderedMap.insert_comm h e.items value value'

/-! ## The whole way -/

/-- Behind one component, what may change places among the members may do so. -/
theorem assignUnder_comm {path path' : List Text} (hp : ¬ path <+: path')
    (hp' : ¬ path' <+: path)
    (inside : ∀ s : Scope,
      EitherOrder Rearranged (assignAt name entry path) (assignAt other entry' path') s)
    (child : Entry) :
    EitherOrder Entry.Rearranged (assignUnder name entry component path)
      (assignUnder other entry' component path') child := by
  match path, path', hp, hp' with
  | [], _, hp, _ => exact absurd List.nil_prefix hp
  | _, [], _, hp' => exact absurd List.nil_prefix hp'
  | next :: rest, next' :: rest', hp, hp' =>
    cases child with
    | scope members =>
      obtain ⟨first, second, both⟩ := inside members
      exact ⟨first, second, .scope both⟩
    | record r members =>
      obtain ⟨first, second, both⟩ := inside members
      exact ⟨first, second, .record r both⟩
    | value v => exact ⟨rfl, rfl, .value v⟩
    | enumeration e =>
      match rest, rest' with
      | [], [] =>
        have apart : next ≠ next' := by
          rintro rfl
          exact hp List.prefix_rfl
        obtain ⟨first, second, both⟩ := withEnumerator_comm apart e
        exact ⟨first, second, both⟩
      -- A way that goes on past an enumerator changes nothing.
      | [], _ :: _ => exact ⟨rfl, rfl, .refl _⟩
      | _ :: _, [] => exact ⟨rfl, rfl, .refl _⟩
      | _ :: _, _ :: _ => exact ⟨rfl, rfl, .refl _⟩

theorem assignAt_comm {path path' : List Text} (hp : ¬ path <+: path') (hp' : ¬ path' <+: path)
    (s : Scope) :
    EitherOrder Rearranged (assignAt name entry path) (assignAt other entry' path') s := by
  induction path generalizing path' s with
  | nil => exact absurd List.nil_prefix hp
  | cons component rest ih =>
    cases path' with
    | nil => exact absurd List.nil_prefix hp'
    | cons component' rest' =>
      by_cases same : component = component'
      · subst same
        have onward : ¬ rest <+: rest' := fun pre => hp (List.cons_prefix_cons.2 ⟨rfl, pre⟩)
        have onward' : ¬ rest' <+: rest := fun pre => hp' (List.cons_prefix_cons.2 ⟨rfl, pre⟩)
        obtain ⟨first, second, both⟩ : EitherOrder Entry.Rearranged
            (assignUnder name entry component rest) (assignUnder other entry' component rest')
            (s.childAt component) :=
          assignUnder_comm onward onward' (ih onward onward') _
        constructor <;> simp only [assignAt_cons, childAt_insert, OrderedMap.insert_insert]
        · exact first
        · exact second
        · exact .insertIn both component s.entries
      · have swapped := OrderedMap.insert_comm same s
          (assignUnder name entry component rest (s.childAt component)).1
          (assignUnder other entry' component' rest' (s.childAt component')).1
        constructor <;>
          simp only [assignAt_cons, childAt_insert_of_ne _ same,
            childAt_insert_of_ne _ (Ne.symm same)]
        exact .of_perm swapped

/-- Two assignments, neither of whose paths lies on the other, may change places. Each has the
result that it has alone, and the two scopes that are left are the same but for the order of
members and enumerators, so that no comparison tells them apart. -/
theorem assign_comm (s : Scope) {name other : Text} (entry entry' : Entry)
    (apart : ¬ Name.path name <+: Name.path other)
    (apart' : ¬ Name.path other <+: Name.path name) :
    ((s.assign other entry').1.assign name entry).2 = (s.assign name entry).2 ∧
    ((s.assign name entry).1.assign other entry').2 = (s.assign other entry').2 ∧
    Rearranged ((s.assign name entry).1.assign other entry').1
      ((s.assign other entry').1.assign name entry).1 ∧
    ∀ t, Scope.equal ((s.assign name entry).1.assign other entry').1 t =
      Scope.equal ((s.assign other entry').1.assign name entry).1 t := by
  obtain ⟨first, second, both⟩ : EitherOrder Rearranged (assignAt name entry (Name.path name))
      (assignAt other entry' (Name.path other)) s := assignAt_comm apart apart' s
  exact ⟨first, second, both, fun t => (Entry.Rearranged.scope both).equal_eq (.scope t)⟩

theorem assign_comm_colors :
    ¬ Name.path "ns::Color::GREEN".toList <+: Name.path "::ns::Color::BLUE".toList ∧
    ¬ Name.path "::ns::Color::BLUE".toList <+: Name.path "ns::Color::GREEN".toList ∧
    (palette.assign "ns::Color::GREEN".toList (.value (.int 1))).2 = .ok () ∧
    (let greenFirst := (palette.assign "ns::Color::GREEN".toList (.value (.int 1))).1.assign
        "::ns::Color::BLUE".toList (.value (.char 'b'))
      let blueFirst := (palette.assign "::ns::Color::BLUE".toList (.value (.char 'b'))).1.assign
        "ns::Color::GREEN".toList (.value (.int 1))
      blueFirst.2 = .ok () ∧ Rearranged greenFirst.1 blueFirst.1 ∧
        greenFirst.1 ≠ blueFirst.1 ∧ greenFirst.1.equal blueFirst.1 = true) := by
  have apart : ¬ Name.path "ns::Color::GREEN".toList <+:
      Name.path "::ns::Color::BLUE".toList := by decide +kernel
  have apart' : ¬ Name.path "::ns::Color::BLUE".toList <+:
      Name.path "ns::Color::GREEN".toList := by decide +kernel
  obtain ⟨green, -, same, equal⟩ :=
    assign_comm palette (.value (.int 1)) (.value (.char 'b')) apart apart'
  refine ⟨apart, apart', rfl, green, same, by decide +kernel, ?_⟩
  rw [equal]
  decide +kernel

end Scope

end ConstantDump
