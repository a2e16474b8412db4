import ConstantDump.Proofs.Name.Numbered

/-!
Taking a name apart from either end.

* `splitFirst_eq_cut`, `splitLast_eq_cut`: a name is cut at the first and at the last of the
  separators that one scan over the whole of it finds outside everything;
* `fromBack_eq_reverse_fromFront`: the components that come off one after another are the same
  from the front and from the back.
-/

namespace ConstantDump.Name

/-! ## One scan over the whole name -/

/-- The places of the separators between components, the first of which begins at `start`. -/
def placesBetween (start : Nat) : List Text → List Nat
  | [] => []
  | [_] => []
  | c :: next :: rest =>
    (start + c.length) :: placesBetween (start + c.length + separator.length) (next :: rest)

/-- A scan that goes on behind a separator finds the same as one that starts there. -/
theorem separatorsFrom_eq {earlier : Text} (h : Alike [] earlier) (before : Text) (d : Depth)
    (t : Text) :
    separatorsFrom (before ++ earlier) d t =
      placesBetween earlier.length (componentsFrom before d t) := by
  fun_induction componentsFrom before d t generalizing earlier with
  | case1 before d => rfl
  | case2 before d c => rfl
  | case3 before d c next rest hsep ih =>
    have onward := ih (alike_nil_colon (':' :: (before ++ earlier)))
    obtain ⟨first, others, components⟩ :=
      List.exists_cons_of_ne_nil (componentsFrom_ne_nil [] .zero rest)
    obtain ⟨rfl, rfl, rfl⟩ := hsep
    rw [components] at onward ⊢
    rw [separatorsFrom, if_pos ⟨rfl, rfl, rfl⟩, placesBetween]
    simp only [List.nil_append, List.length_cons, List.length_append] at onward
    simp only [onward, List.length_append, List.length_reverse, separator, List.length_cons,
      List.length_nil, Nat.add_comm earlier.length]
  | case4 before d c next rest hsep ih =>
    have look : followsOperator (before ++ earlier) = followsOperator before := by
      simpa using (h before).symm
    rw [separatorsFrom, if_neg hsep, Depth.next_congr look]
    exact ih h

theorem separators_eq (name : Text) : separators name = placesBetween 0 (components name) :=
  separatorsFrom_eq (fun _ => rfl) [] .zero name

theorem getLast?_placesBetween {scopes : List Text} (h : scopes ≠ []) (last : Text)
    (start : Nat) :
    (placesBetween start (scopes ++ [last])).getLast? = some (start + (join scopes).length) := by
  induction scopes generalizing start with
  | nil => exact absurd rfl h
  | cons c scopes ih =>
    cases scopes with
    | nil => rfl
    | cons next scopes =>
      have onward := ih (by simp) (start + c.length + separator.length)
      rw [List.cons_append] at onward
      rw [List.cons_append, List.cons_append, placesBetween,
        List.getLast?_cons, onward, join_cons_of_ne_nil c (List.cons_ne_nil _ _)]
      simp only [List.length_append, Option.getD_some, Option.some.injEq]
      omega

/-! ## One cut -/

theorem take_length_append (u v : Text) : (u ++ (separator ++ v)).take u.length = u :=
  List.take_left

theorem drop_length_append (u v : Text) :
    (u ++ (separator ++ v)).drop (u.length + separator.length) = v := by
  rw [← List.append_assoc, ← List.length_append, List.drop_left]

theorem eq_append_of_splitFirst {name first rest : Text}
    (h : splitFirst name = (first, some rest)) :
    components name = first :: components rest ∧ name = first ++ (separator ++ rest) := by
  unfold splitFirst at h
  split at h
  · cases h
  · cases h
  · rename_i first' next others hc
    cases h
    have cut : components name = [first] ++ (next :: others) := hc
    obtain ⟨whole, -, tail, -⟩ := components_eq_append cut (by simp) (by simp)
    rw [tail]
    exact ⟨hc, whole⟩

theorem eq_of_splitFirst_none {name first : Text} (h : splitFirst name = (first, none)) :
    components name = [name] ∧ first = name := by
  unfold splitFirst at h
  split at h
  · rename_i hc
    exact absurd hc (components_ne_nil name)
  · rename_i first' hc
    cases h
    obtain rfl : first = name := by
      rw [← join_components name, hc]
      rfl
    exact ⟨hc, rfl⟩
  · cases h

theorem splitFirst_eq_self_iff {name : Text} :
    splitFirst name = (name, none) ↔ components name = [name] := by
  refine ⟨fun h => (eq_of_splitFirst_none h).1, fun h => ?_⟩
  rw [splitFirst, h]

/-- The first component ends at the first separator that is outside everything. -/
theorem splitFirst_eq_cut (name : Text) :
    splitFirst name =
      match (separators name).head? with
      | none => (name, none)
      | some i => (name.take i, some (name.drop (i + separator.length))) := by
  rcases h : splitFirst name with ⟨first, _ | rest⟩
  · obtain ⟨single, rfl⟩ := eq_of_splitFirst_none h
    rw [separators_eq, single]
    rfl
  · obtain ⟨comps, whole⟩ := eq_append_of_splitFirst h
    obtain ⟨second, others, tail⟩ := List.exists_cons_of_ne_nil (components_ne_nil rest)
    have here : (separators name).head? = some first.length := by
      rw [separators_eq, comps, tail, placesBetween, Nat.zero_add]
      rfl
    rw [here, whole]
    simp only [take_length_append, drop_length_append]

theorem splitLast_cases (name : Text) :
    components name = [name] ∧ splitLast name = (none, name) ∨
      ∃ scopes last, scopes ≠ [] ∧ components name = scopes ++ [last] ∧
        components (join scopes) = scopes ∧ name = join scopes ++ (separator ++ last) ∧
        splitLast name = (some (join scopes), last) := by
  obtain ⟨scopes, last, hc⟩ :=
    (List.eq_nil_or_concat' (components name)).resolve_left (components_ne_nil name)
  have split := splitLast_of_components hc
  by_cases hs : scopes = []
  · subst hs
    obtain rfl : last = name := by
      rw [← join_components name, hc]
      rfl
    exact .inl ⟨hc, split⟩
  · obtain ⟨whole, init, -, -⟩ := components_eq_append hc hs (by simp)
    rw [if_neg hs] at split
    exact .inr ⟨scopes, last, hs, hc, init, whole, split⟩

/-- The enclosing scope ends at the last separator that is outside everything. -/
theorem splitLast_eq_cut (name : Text) :
    splitLast name =
      match (separators name).getLast? with
      | none => (none, name)
      | some i => (some (name.take i), name.drop (i + separator.length)) := by
  rcases splitLast_cases name with ⟨single, split⟩ | ⟨scopes, last, hs, hc, -, whole, split⟩
  · rw [separators_eq, single, split]
    rfl
  · have here : (separators name).getLast? = some (join scopes).length := by
      rw [separators_eq, hc, getLast?_placesBetween hs, Nat.zero_add]
    rw [split, here, whole]
    simp only [take_length_append, drop_length_append]

/-! ## All cuts -/

theorem length_lt_of_splitFirst {name first rest : Text}
    (h : splitFirst name = (first, some rest)) : rest.length < name.length := by
  rw [(eq_append_of_splitFirst h).2]
  simp [separator]
  omega

theorem length_lt_of_splitLast {name scope last : Text}
    (h : splitLast name = (some scope, last)) : scope.length < name.length := by
  rcases splitLast_cases name with ⟨-, split⟩ | ⟨scopes, other, -, -, -, whole, split⟩
  · rw [split] at h
    cases h
  · rw [split] at h
    cases h
    rw [whole]
    simp [separator]

/-- The components that come off the front, one after another. -/
def fromFront (name : Text) : List Text :=
  match h : splitFirst name with
  | (first, none) => [first]
  | (first, some rest) =>
    have := length_lt_of_splitFirst h
    first :: fromFront rest
termination_by name.length

/-- The components that come off the back, one after another. -/
def fromBack (name : Text) : List Text :=
  match h : splitLast name with
  | (none, last) => [last]
  | (some scope, last) =>
    have := length_lt_of_splitLast h
    last :: fromBack scope
termination_by name.length

theorem fromFront_eq_components (name : Text) : fromFront name = components name := by
  fun_induction fromFront name with
  | case1 name first h =>
    obtain ⟨single, rfl⟩ := eq_of_splitFirst_none h
    exact single.symm
  | case2 name first rest h _ ih => rw [ih, (eq_append_of_splitFirst h).1]

theorem fromBack_eq_reverse_components (name : Text) :
    fromBack name = (components name).reverse := by
  fun_induction fromBack name with
  | case1 name last h =>
    rcases splitLast_cases name with ⟨single, split⟩ | ⟨scopes, other, -, -, -, -, split⟩
    · rw [split] at h
      cases h
      rw [single]
      rfl
    · rw [split] at h
      cases h
  | case2 name scope last h _ ih =>
    rcases splitLast_cases name with ⟨-, split⟩ | ⟨scopes, other, -, hc, init, -, split⟩
    · rw [split] at h
      cases h
    · rw [split] at h
      cases h
      rw [ih, init, hc, List.reverse_concat]

/-- Every component is one of its own: nothing more comes off it. -/
theorem components_of_mem {name c : Text} (h : c ∈ components name) : components c = [c] := by
  obtain ⟨before, after, hc⟩ := List.append_of_mem h
  have tail : components (join (c :: after)) = c :: after := by
    by_cases hb : before = []
    · rw [← List.nil_append (c :: after), ← hb, ← hc, join_components]
    · exact (components_eq_append hc hb (by simp)).2.2.1
  by_cases ha : after = []
  · subst ha
    exact tail
  · have cut : components (join (c :: after)) = [c] ++ after := tail
    exact (components_eq_append cut (by simp) ha).2.1

/-- From the front and from the back a name comes apart into the same components, which make
up the name, and each of which is one component on its own. -/
theorem fromBack_eq_reverse_fromFront (name : Text) :
    join (fromFront name) = name ∧ fromBack name = (fromFront name).reverse ∧
      ∀ c ∈ fromFront name, splitFirst c = (c, none) := by
  rw [fromFront_eq_components]
  refine ⟨join_components name, fromBack_eq_reverse_components name, fun c hc => ?_⟩
  exact splitFirst_eq_self_iff.2 (components_of_mem hc)

end ConstantDump.Name
