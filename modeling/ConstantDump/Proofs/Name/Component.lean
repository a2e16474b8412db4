import ConstantDump.Proofs.Name.Qualified
import ConstantDump.Proofs.Name.Separators

/-!
Components that a name can be put together from.

* `IsComponent`: no separator of the text is outside everything, and it ends outside
  everything; so do identifiers, operator names, and components with a list of parameters or
  of template arguments behind them;
* `fromFront_join`: the components of a joined name come back, from either end.
-/

namespace ConstantDump.Name

/-- One component on its own, which leaves nothing open behind it. -/
structure IsComponent (c : Text) : Prop where
  single : splitFirst c = (c, none)
  closed : depthAfter [] .zero c = .zero

instance (c : Text) : Decidable (IsComponent c) :=
  decidable_of_iff (splitFirst c = (c, none) ∧ depthAfter [] .zero c = .zero)
    ⟨fun ⟨s, d⟩ => ⟨s, d⟩, fun ⟨s, d⟩ => ⟨s, d⟩⟩

/-! ## What components look like -/

theorem isComponent_identifier {name : Text} (h : isIdentifier name = true) :
    IsComponent name where
  single := splitFirst_eq_self_iff.2 (components_identifier h)
  closed := depthAfter_identifier h [] .zero

/-- Behind what has been read, the text opens brackets or template arguments with its first
character, and closes them with its last and not before. -/
structure Encloses (before list : Text) : Prop where
  closed : depthAfter before .zero list = .zero
  inside : ∀ n < list.length, 0 < n → depthAfter before .zero (list.take n) ≠ .zero
  opens : list.head? ≠ some ':'

instance (before list : Text) : Decidable (Encloses before list) :=
  decidable_of_iff
    (depthAfter before .zero list = .zero ∧
      (∀ n < list.length, 0 < n → depthAfter before .zero (list.take n) ≠ .zero) ∧
      list.head? ≠ some ':')
    ⟨fun ⟨c, i, o⟩ => ⟨c, i, o⟩, fun ⟨c, i, o⟩ => ⟨c, i, o⟩⟩

/-- A list of parameters or of template arguments does not end the component. -/
theorem IsComponent.append {name list : Text} (hn : IsComponent name)
    (hl : Encloses name.reverse list) : IsComponent (name ++ list) where
  single := by
    refine splitFirst_eq_self_iff.2 (components_eq_singleton_iff.2 fun u v cut => ?_)
    have inside_name := components_eq_singleton_iff.1 (splitFirst_eq_self_iff.1 hn.single)
    rcases List.append_eq_append_iff.1 cut with ⟨w, hu, hw⟩ | ⟨w, hu, hw⟩
    · -- The separator stands in the list, not at its start.
      have shape : u = name ++ w := hu
      subst shape
      have start : w ≠ [] := by
        rintro rfl
        rw [List.nil_append] at hw
        exact hl.opens (by rw [hw]; rfl)
      have depth : depthAfter [] .zero (name ++ w) = depthAfter name.reverse .zero w := by
        rw [depthAfter_append, hn.closed, List.append_nil]
      have inside := hl.inside w.length (by simp [hw, separator]) (List.length_pos_iff.2 start)
      rw [hw, List.take_left] at inside
      rwa [depth]
    · -- It begins in the name, and so does not reach into the list.
      cases w with
      | nil =>
        rw [List.nil_append] at hw
        exact absurd (by rw [← hw]; rfl) hl.opens
      | cons c w =>
        cases w with
        | nil =>
          obtain ⟨-, rest⟩ : ':' = c ∧ ':' :: v = list := by simpa [separator] using hw
          exact absurd (by rw [← rest]; rfl) hl.opens
        | cons next w =>
          obtain ⟨rfl, rfl, -⟩ : ':' = c ∧ ':' = next ∧ v = w ++ list := by
            simpa [separator] using hw
          exact inside_name u w hu
  closed := by
    rw [depthAfter_append, hn.closed, List.append_nil]
    exact hl.closed

theorem Depth.next_of_operator {c : Char} (h : isSign c = true) {before : Text}
    (look : followsOperator before = true) (d : Depth) : d.next before c = d := by
  have signs : c = '<' ∨ c = '>' ∨ c = '=' ∨ c = '-' := by simpa [isSign, or_assoc] using h
  rcases signs with rfl | rfl | rfl | rfl <;> simp [Depth.next, look]

/-- Signs behind the keyword are the operator's, and neither open nor close anything. -/
theorem depthAfter_signs {signs : Text} (h : ∀ c ∈ signs, isSign c = true) (before : Text)
    (hb : ∀ c ∈ before, isSign c = true) (d : Depth) :
    depthAfter (before ++ operatorReversed) d signs = d := by
  induction signs generalizing before with
  | nil => rfl
  | cons c signs ih =>
    have sign := h c (by simp)
    have look : followsOperator (before ++ operatorReversed) = true := by
      have passed : (before ++ operatorReversed).dropWhile isSign = operatorReversed := by
        rw [List.dropWhile_append_of_pos hb]
        rfl
      rw [followsOperator, passed]
      decide
    rw [depthAfter, Depth.next_of_operator sign look]
    exact ih (fun e he => h e (by simp [he])) (c :: before) (List.forall_mem_cons.2 ⟨sign, hb⟩)

theorem isComponent_operator {signs : Text} (h : ∀ c ∈ signs, isSign c = true) :
    IsComponent ("operator".toList ++ signs) where
  single := by
    refine splitFirst_eq_self_iff.2 (components_eq_singleton_iff.2 fun u v cut _ => ?_)
    have colon : ':' ∈ "operator".toList ++ signs := by
      rw [cut]
      simp [separator]
    rcases List.mem_append.1 colon with keyword | sign
    · revert keyword
      decide
    · have := h ':' sign
      revert this
      decide
  closed := by
    rw [depthAfter_append]
    exact depthAfter_signs h [] (by simp) .zero

/-! ## Putting a name together -/

/-- Joined components come back, from the front and from the back. -/
theorem fromFront_join :
    (∀ (scopes : List Text) (last : Text), (∀ c ∈ scopes ++ [last], IsComponent c) →
      (∀ c ∈ scopes, c.getLast? ≠ some ':') →
      fromFront (join (scopes ++ [last])) = scopes ++ [last] ∧
      splitLast (join (scopes ++ [last])) =
        (if scopes = [] then none else some (join scopes), last)) ∧
    (∀ name, isIdentifier name = true → IsComponent name) ∧
    (∀ signs : Text, (∀ c ∈ signs, isSign c = true) →
      IsComponent ("operator".toList ++ signs)) ∧
    (∀ name list, IsComponent name → Encloses name.reverse list →
      IsComponent (name ++ list)) := by
  refine ⟨fun scopes last h colon => ?_, fun _ => isComponent_identifier,
    fun _ => isComponent_operator, fun _ _ => IsComponent.append⟩
  have apart : components (join (scopes ++ [last])) = scopes ++ [last] :=
    components_join_concat (fun c hc => splitFirst_eq_self_iff.1 (h c hc).single)
      (fun c hc => (h c (List.mem_append_left _ hc)).closed) colon
  exact ⟨(fromFront_eq_components _).trans apart, splitLast_of_components apart⟩

/-- Scopes with separators and signs inside them. -/
def innerScopes : List Text :=
  [ "std".toList, "Box<std::pair<int, a::B>>".toList, "f(std::string, int)".toList,
    "operator<".toList, "operator<=>".toList, "operator->".toList,
    "operator<<(std::ostream &, int)".toList ]

theorem fromFront_join_innerScopes :
    (∀ c ∈ innerScopes ++ ["operator()".toList], IsComponent c) ∧
    (∀ c ∈ innerScopes, c.getLast? ≠ some ':') ∧
    fromFront (join (innerScopes ++ ["operator()".toList])) =
      innerScopes ++ ["operator()".toList] ∧
    splitLast (join (innerScopes ++ ["operator()".toList])) =
      (some (join innerScopes), "operator()".toList) ∧
    isIdentifier "operator".toList = true ∧
    Encloses "operator".toList.reverse "()".toList ∧ IsComponent "operator()".toList ∧
    (∀ c ∈ "<<".toList, isSign c = true) ∧
    Encloses "operator<<".toList.reverse "(std::ostream &, int)".toList ∧
    IsComponent "operator<<(std::ostream &, int)".toList := by
  obtain ⟨joined, identifier, operator, list⟩ := fromFront_join
  have components : ∀ c ∈ innerScopes ++ ["operator()".toList], IsComponent c := by
    decide +kernel
  have colons : ∀ c ∈ innerScopes, c.getLast? ≠ some ':' := by decide +kernel
  have keyword : isIdentifier "operator".toList = true := by decide +kernel
  have empty : Encloses "operator".toList.reverse "()".toList := by decide +kernel
  have signs : ∀ c ∈ "<<".toList, isSign c = true := List.all_eq_true.1 (by decide)
  have parameters :
      Encloses "operator<<".toList.reverse "(std::ostream &, int)".toList := by
    decide +kernel
  obtain ⟨front, back⟩ := joined innerScopes "operator()".toList components colons
  exact ⟨components, colons, front, back, keyword, empty,
    list "operator".toList "()".toList (identifier _ keyword) empty, signs, parameters,
    list "operator<<".toList "(std::ostream &, int)".toList (operator _ signs) parameters⟩

end ConstantDump.Name
