import ConstantDump.Proofs.Name.Separators
import ConstantDump.Proofs.Scope.Store

/-!
The ways to write a name. Markers of anonymous namespaces may stand anywhere among its
components, and a separator in front of them.

* `dropLeading_join`: a separator in front is an empty component before others;
* `withoutMarkers_lead`: of the scopes, the markers go, each with the separator behind it;
* `normalize_writable`: normalizing takes the markers out of the components and changes nothing
  else, so all the ways to write a name stand for one place in a scope.
-/

namespace ConstantDump.Name

/-- Components that a name can be written with. No separator in one of them is outside
everything, none has a marker in it unless it is one, and none ends in a colon before another. -/
structure Writable (parts : List Text) : Prop where
  ne_nil : parts ≠ []
  single : ∀ part ∈ parts, splitFirst part = (part, none)
  markers : ∀ part ∈ parts, part = anonymousNamespace ∨ ¬ anonymousNamespace <:+: part
  colons : ∀ part ∈ parts.dropLast, part.getLast? ≠ some ':'

instance (parts : List Text) : Decidable (Writable parts) :=
  decidable_of_iff
    (parts ≠ [] ∧ (∀ part ∈ parts, splitFirst part = (part, none)) ∧
      (∀ part ∈ parts, part = anonymousNamespace ∨ ¬ anonymousNamespace <:+: part) ∧
      ∀ part ∈ parts.dropLast, part.getLast? ≠ some ':')
    ⟨fun ⟨n, s, m, c⟩ => ⟨n, s, m, c⟩, fun ⟨n, s, m, c⟩ => ⟨n, s, m, c⟩⟩

/-- The components without one empty one that stands before others. -/
def dropEmpty : List Text → List Text
  | [] :: next :: rest => next :: rest
  | parts => parts

def unmarked (parts : List Text) : List Text := parts.filter (· ≠ anonymousNamespace)

/-- The name with these components, maybe with a separator in front. -/
def written (leading : Bool) (parts : List Text) : Text :=
  if leading then separator ++ join parts else join parts

variable {part : Text} {parts scopes : List Text}

theorem unmarked_cons_marker (parts : List Text) :
    unmarked (anonymousNamespace :: parts) = unmarked parts := by
  simp [unmarked]

theorem unmarked_cons (h : part ≠ anonymousNamespace) (parts : List Text) :
    unmarked (part :: parts) = part :: unmarked parts := by
  simp [unmarked, h]

theorem unmarked_append (parts others : List Text) :
    unmarked (parts ++ others) = unmarked parts ++ unmarked others :=
  List.filter_append ..

/-! ## The separator in front -/

/-- A component on its own does not begin with a separator. -/
theorem not_prefix_of_single (h : splitFirst part = (part, none)) : ¬ separator <+: part := by
  rintro ⟨rest, hr⟩
  have guarded := components_eq_singleton_iff.1 (splitFirst_eq_self_iff.1 h) [] rest hr.symm
  exact guarded rfl

/-- Nor does it do so with more text behind it, unless it is empty. -/
theorem not_prefix_of_writable (h : splitFirst part = (part, none)) (named : part ≠ [])
    (colon : part.getLast? ≠ some ':') (t : Text) : ¬ separator <+: part ++ t := by
  intro pre
  match part with
  | [] => exact named rfl
  | [c] =>
    obtain ⟨rfl, -⟩ := List.cons_prefix_cons.1 pre
    exact colon rfl
  | c :: second :: others =>
    have inside : separator <+: [c, second] ++ others := by
      obtain ⟨rfl, behind⟩ := List.cons_prefix_cons.1 pre
      obtain ⟨rfl, -⟩ := List.cons_prefix_cons.1 behind
      exact List.prefix_append ..
    exact not_prefix_of_single h inside

theorem dropLeading_join (h : Writable parts) :
    dropLeading (join parts) = join (dropEmpty parts) := by
  match parts, h with
  | [part], h =>
    have whole : dropEmpty [part] = [part] := by cases part <;> rfl
    have single : join [part] = part := rfl
    rw [whole, single]
    exact dropLeading_of_not_prefix (not_prefix_of_single (h.single part (by simp)))
  | [] :: next :: rest, _ =>
    rw [join_cons_of_ne_nil [] (List.cons_ne_nil next rest)]
    exact dropLeading_separator _
  | (c :: part) :: next :: rest, h =>
    have whole : dropEmpty ((c :: part) :: next :: rest) = (c :: part) :: next :: rest := rfl
    rw [whole, join_cons_of_ne_nil (c :: part) (List.cons_ne_nil next rest), List.append_assoc]
    exact dropLeading_of_not_prefix (not_prefix_of_writable (h.single _ (by simp))
      (List.cons_ne_nil c part) (h.colons _ (by simp)) _)

theorem Writable.dropEmpty (h : Writable parts) : Writable (dropEmpty parts) := by
  match parts, h with
  | [part], h =>
    cases part <;> exact h
  | [] :: next :: rest, h =>
    refine ⟨List.cons_ne_nil next rest, fun part hp => h.single part (.tail _ hp),
      fun part hp => h.markers part (.tail _ hp), fun part hp => h.colons part ?_⟩
    rw [List.dropLast_cons_of_ne_nil (List.cons_ne_nil next rest)]
    exact .tail _ hp
  | (c :: part) :: next :: rest, h => exact h

/-! ## The markers -/

/-- Of the scopes, the markers go with the separators behind them. -/
theorem withoutMarkers_lead
    (markers : ∀ scope ∈ scopes, scope = anonymousNamespace ∨ ¬ anonymousNamespace <:+: scope)
    (colons : ∀ scope ∈ scopes, scope.getLast? ≠ some ':') :
    withoutMarkers (lead scopes) = lead (unmarked scopes) := by
  induction scopes with
  | nil => exact Text.erase_nil _
  | cons scope scopes ih =>
    obtain ⟨marker, markers⟩ := List.forall_mem_cons.1 markers
    obtain ⟨colon, colons⟩ := List.forall_mem_cons.1 colons
    have onward := ih markers colons
    have first : lead (scope :: scopes) = lead [scope] ++ lead scopes :=
      lead_append [scope] scopes
    rw [first, withoutMarkers_lead_append, onward]
    rcases marker with rfl | plain
    · have gone : withoutMarkers (lead [anonymousNamespace]) = [] :=
        withoutMarkers_lead_replicate 1
      rw [gone, unmarked_cons_marker, List.nil_append]
    · have other : scope ≠ anonymousNamespace := fun same => plain (same ▸ List.infix_rfl)
      have kept : withoutMarkers scope = scope := Text.erase_of_not_infix fun inside =>
        plain ((List.prefix_append anonymousNamespace separator).isInfix.trans inside)
      have shape : lead [scope] = scope ++ separator := by simp [lead]
      rw [shape, withoutMarkers_append_separator colon fun ends => plain ends.isInfix, kept,
        unmarked_cons other]
      simp [lead]

/-- A marker at the end of a name is in its last component. -/
theorem suffix_of_lead_append (h : anonymousNamespace <:+ lead scopes ++ part) :
    anonymousNamespace <:+ part := by
  obtain ⟨before, cut⟩ := h
  rcases List.append_eq_append_iff.1 cut with ⟨rest, hl, hm⟩ | ⟨rest, -, hp⟩
  · -- It would begin among the scopes, and so have the colon before the component in it.
    by_cases hs : scopes = []
    · subst hs
      obtain ⟨-, rfl⟩ : before = [] ∧ rest = [] := by simpa [lead] using hl
      exact ⟨[], hm⟩
    · rcases List.eq_nil_or_concat' rest with rfl | ⟨start, c, rfl⟩
      · exact ⟨[], hm⟩
      · have last := congrArg List.getLast? hl
        rw [lead_eq_join hs, ← List.append_assoc, List.getLast?_concat,
          List.getLast?_append_of_ne_nil _ (by decide)] at last
        have absent : ':' ∉ anonymousNamespace := by decide
        obtain rfl : ':' = c := by simpa [separator] using last
        exact absurd (by rw [hm]; simp) absent
  · exact ⟨rest, hp.symm⟩

/-- Where the last component has no marker in it, the scopes lose theirs, and where it is one,
it goes as well. -/
theorem dropLastMarker_lead
    (marker : part = anonymousNamespace ∨ ¬ anonymousNamespace <:+: part) :
    dropLastMarker (lead scopes ++ part) = join (scopes ++ unmarked [part]) := by
  rcases marker with rfl | plain
  · rw [unmarked_cons_marker]
    have none_left : scopes ++ unmarked [] = scopes := List.append_nil scopes
    rw [none_left]
    by_cases hs : scopes = []
    · subst hs
      decide
    · rw [lead_eq_join hs, List.append_assoc]
      exact dropLastMarker_append _
  · have other : part ≠ anonymousNamespace := fun same => plain (same ▸ List.infix_rfl)
    have stays : unmarked [part] = [part] := unmarked_cons other []
    rw [stays, join_concat]
    exact dropLastMarker_of_unmarked fun ends => plain (suffix_of_lead_append ends).isInfix

/-- Without the separator in front, normalizing is taking the markers out. -/
theorem dropLastMarker_withoutMarkers (h : Writable parts) :
    dropLastMarker (withoutMarkers (join parts)) = join (unmarked parts) := by
  obtain ⟨scopes, last, rfl⟩ := (List.eq_nil_or_concat' parts).resolve_left h.ne_nil
  have markers : ∀ scope ∈ scopes,
      scope = anonymousNamespace ∨ ¬ anonymousNamespace <:+: scope := fun scope hs =>
    h.markers scope (List.mem_append_left _ hs)
  have colons : ∀ scope ∈ scopes, scope.getLast? ≠ some ':' := fun scope hs =>
    h.colons scope (by rwa [List.dropLast_concat])
  have marker := h.markers last (by simp)
  have kept : withoutMarkers last = last := by
    rcases marker with rfl | plain
    · decide
    · exact Text.erase_of_not_infix fun inside =>
        plain ((List.prefix_append anonymousNamespace separator).isInfix.trans inside)
  rw [join_concat, withoutMarkers_lead_append, withoutMarkers_lead markers colons, kept,
    dropLastMarker_lead marker, unmarked_append]

theorem normalize_join_of_writable (h : Writable parts) :
    normalize (join parts) = join (unmarked (dropEmpty parts)) := by
  have steps : normalize (join parts) =
      dropLastMarker (withoutMarkers (dropLeading (join parts))) := rfl
  rw [steps, dropLeading_join h, dropLastMarker_withoutMarkers h.dropEmpty]

/-! ## Ways to write one name -/

theorem Writable.cons_nil (h : Writable parts) : Writable ([] :: parts) where
  ne_nil := List.cons_ne_nil _ _
  single := List.forall_mem_cons.2 ⟨rfl, h.single⟩
  markers := List.forall_mem_cons.2 ⟨.inr (by decide), h.markers⟩
  colons := by
    rw [List.dropLast_cons_of_ne_nil h.ne_nil]
    exact List.forall_mem_cons.2 ⟨by simp, h.colons⟩

/-- With or without a separator in front, a name without empty components is that of its
components without the markers. -/
theorem normalize_written (h : Writable parts) (named : ∀ part ∈ parts, part ≠ [])
    (leading : Bool) : normalize (written leading parts) = join (unmarked parts) := by
  obtain ⟨first, rest, rfl⟩ := List.exists_cons_of_ne_nil h.ne_nil
  cases leading with
  | true =>
    have shape : written true (first :: rest) = join ([] :: first :: rest) := by
      rw [join_cons_of_ne_nil [] (List.cons_ne_nil first rest)]
      rfl
    rw [shape, normalize_join_of_writable h.cons_nil]
    rfl
  | false =>
    have whole : dropEmpty (first :: rest) = first :: rest := by
      obtain ⟨c, part, rfl⟩ := List.exists_cons_of_ne_nil (named first (by simp))
      rfl
    have shape : written false (first :: rest) = join (first :: rest) := rfl
    rw [shape, normalize_join_of_writable h, whole]

/-- Normalizing a name takes out the components that are markers, and one empty component in
front of others. So names without empty components that differ only in markers and in a
separator in front have one path, and what is assigned under one of them is found under the
other. -/
theorem normalize_writable :
    (∀ parts, Writable parts → normalize (join parts) = join (unmarked (dropEmpty parts))) ∧
    ∀ (parts others : List Text) (leading leading' : Bool), Writable parts → Writable others →
      (∀ part ∈ parts, part ≠ []) → (∀ part ∈ others, part ≠ []) →
      unmarked parts = unmarked others →
      path (written leading parts) = path (written leading' others) ∧
      ∀ (s s' : Scope) (entry : Entry),
        s.assign (written leading parts) entry = (s', .ok ()) →
        match s.parentEnumeration? (path (written leading parts)) with
        | none => s'.lookup (written leading' others) = .ok (.entry entry)
        | some _ => ∃ value, entry.integral? = some value ∧
            s'.lookup (written leading' others) = .ok (.enumerator value) := by
  refine ⟨fun parts h => normalize_join_of_writable h, ?_⟩
  intro parts others leading leading' h ho named named' same
  have one : path (written leading parts) = path (written leading' others) := by
    rw [path, path, normalize_written h named, normalize_written ho named', same]
  exact ⟨one, fun s s' entry assigned => Scope.lookup_of_assign assigned one.symm⟩

def markedColor : List Text :=
  [anonymousNamespace, "ns".toList, anonymousNamespace, "Color".toList, "GREEN".toList]

def plainColor : List Text := ["ns".toList, "Color".toList, "GREEN".toList]

/-- A function between markers, behind an empty component. -/
def hiddenFunction : List Text :=
  [[], anonymousNamespace, "f(a::b)".toList, anonymousNamespace, anonymousNamespace]

theorem normalize_writable_color :
    Writable hiddenFunction ∧ normalize (join hiddenFunction) = "f(a::b)".toList ∧
    Writable markedColor ∧ Writable plainColor ∧ unmarked markedColor = unmarked plainColor ∧
    written true markedColor =
      "::(anonymous namespace)::ns::(anonymous namespace)::Color::GREEN".toList ∧
    written false plainColor = "ns::Color::GREEN".toList ∧
    Scope.palette.assign (written true markedColor) (.value (.int 1)) =
      (Scope.widerPalette, .ok ()) ∧
    Scope.widerPalette.lookup (written false plainColor) = .ok (.enumerator 1) := by
  obtain ⟨markers_go, one_place⟩ := normalize_writable
  have function : Writable hiddenFunction := by decide +kernel
  have alone : join (unmarked (dropEmpty hiddenFunction)) = "f(a::b)".toList := by decide +kernel
  have marked : Writable markedColor := by decide +kernel
  have plain : Writable plainColor := by decide +kernel
  have same : unmarked markedColor = unmarked plainColor := by decide +kernel
  have assigned : Scope.palette.assign (written true markedColor) (.value (.int 1)) =
      (Scope.widerPalette, .ok ()) := rfl
  have color : Scope.palette.parentEnumeration? (path (written true markedColor)) =
      some ⟨"Color".toList, .ofList [("RED".toList, 0)]⟩ := rfl
  obtain ⟨-, found⟩ := one_place markedColor plainColor true false marked plain
    (by decide +kernel) (by decide +kernel) same
  have there := found _ _ _ assigned
  rw [color] at there
  obtain ⟨value, integral, stored⟩ := there
  obtain rfl : 1 = value := by
    simpa [Entry.integral?, Entry.value?, Value.integral?] using integral
  exact ⟨function, (markers_go _ function).trans alone, marked, plain, same, rfl, rfl, assigned,
    stored⟩

end ConstantDump.Name
