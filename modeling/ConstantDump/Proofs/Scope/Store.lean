import ConstantDump.Proofs.Scope.Assign

/-!
A scope is a store addressed by paths. Main statement: an assignment that succeeds is
found under its name, leaves what independent names stand for, and keeps the order of
names wherever it passes.
-/

namespace ConstantDump.Scope

theorem assigned_path {s s' : Scope} {name : Text} {entry : Entry}
    (h : s.assign name entry = (s', .ok ())) : Assigned entry (Name.path name) s s' :=
  assigned_of_ok (Name.components_ne_nil _) h

theorem lookup_eq_ok_iff {s : Scope} {name : Text} {found : Found} :
    s.lookup name = .ok found ↔ find? (Name.path name) s = some found := by
  unfold lookup lookup?
  cases find? (Name.path name) s <;> simp

theorem lookup_congr {s s' : Scope} {name : Text}
    (h : find? (Name.path name) s' = find? (Name.path name) s) :
    s'.lookup name = s.lookup name := by
  simp only [lookup, lookup?, h]

/-- After an assignment, each name with the same path stands for the entry, or for its integer
where it is an enumerator. -/
theorem lookup_of_assign {s s' : Scope} {name other : Text} {entry : Entry}
    (h : s.assign name entry = (s', .ok ())) (same : Name.path other = Name.path name) :
    match parentEnumeration? (Name.path name) s with
    | none => s'.lookup other = .ok (.entry entry)
    | some _ => ∃ value,
        entry.integral? = some value ∧ s'.lookup other = .ok (.enumerator value) := by
  have assigned := assigned_path h
  have found := assigned.find?_self
  cases hp : parentEnumeration? (Name.path name) s with
  | none =>
    rw [hp, ← same] at found
    exact lookup_eq_ok_iff.2 found
  | some e =>
    obtain ⟨value, hv⟩ := assigned.integral hp
    rw [hp, ← same] at found
    refine ⟨value, hv, lookup_eq_ok_iff.2 ?_⟩
    simpa [hv] using found

/-- After an assignment, the name stands for the entry, or for its integer when the
components before the last one lead to an enumeration; every name whose path is neither
a beginning nor a continuation of the assigned one stands for what it stood for; and at
each component of the path, the names beside it keep their order, an old component its
place, and a new one comes last. -/
theorem assign_lookup {s s' : Scope} {name : Text} {entry : Entry}
    (h : s.assign name entry = (s', .ok ())) :
    (match parentEnumeration? (Name.path name) s with
      | none => s'.lookup name = .ok (.entry entry)
      | some _ => ∃ value,
          entry.integral? = some value ∧ s'.lookup name = .ok (.enumerator value)) ∧
    (∀ other, ¬ Name.path name <+: Name.path other → ¬ Name.path other <+: Name.path name →
      s'.lookup other = s.lookup other) ∧
    (∀ before component after, Name.path name = before ++ component :: after →
      namesAt before s' = withName (namesAt before s) component) := by
  have assigned := assigned_path h
  refine ⟨lookup_of_assign h rfl, ?_, ?_⟩
  · intro other hp ho
    exact lookup_congr (assigned.find?_of_not_prefix hp ho)
  · intro before component after hp
    exact assigned.namesAt_eq hp

def palette : Scope :=
  .ofList [("ns".toList, .scope (.ofList
    [("Pen".toList, .record (.ofFieldList "ns::Pen".toList "width".toList) .empty),
      ("Color".toList, .enumeration ⟨"Color".toList, .ofList [("RED".toList, 0)]⟩)]))]

def widerPalette : Scope :=
  .ofList [("ns".toList, .scope (.ofList
    [("Pen".toList, .record (.ofFieldList "ns::Pen".toList "width".toList) .empty),
      ("Color".toList, .enumeration
        ⟨"Color".toList, .ofList [("RED".toList, 0), ("GREEN".toList, 1)]⟩)]))]

theorem assign_lookup_enumerator :
    palette.assign "::ns::Color::GREEN".toList (.value (.int 1)) = (widerPalette, .ok ()) ∧
    widerPalette.lookup "::ns::Color::GREEN".toList = .ok (.enumerator 1) ∧
    widerPalette.lookup "ns::Color::RED".toList = palette.lookup "ns::Color::RED".toList ∧
    namesAt ["ns".toList, "Color".toList] widerPalette = ["RED".toList, "GREEN".toList] := by
  have h : palette.assign "::ns::Color::GREEN".toList (.value (.int 1)) =
      (widerPalette, .ok ()) := rfl
  have path : Name.path "::ns::Color::GREEN".toList =
      ["ns".toList, "Color".toList, "GREEN".toList] := by decide +kernel
  obtain ⟨found, kept, order⟩ := assign_lookup h
  refine ⟨h, ?_, kept _ (by decide +kernel) (by decide +kernel), ?_⟩
  · have hp : parentEnumeration? (Name.path "::ns::Color::GREEN".toList) palette =
        some ⟨"Color".toList, .ofList [("RED".toList, 0)]⟩ := rfl
    rw [hp] at found
    obtain ⟨value, hv, hl⟩ := found
    obtain rfl : 1 = value := by simpa [Entry.integral?, Entry.value?, Value.integral?] using hv
    exact hl
  · have names := order ["ns".toList, "Color".toList] "GREEN".toList [] path
    rw [names]
    decide +kernel

end ConstantDump.Scope
