import ConstantDump.Name.Components
import Mathlib.Data.List.Basic
import Mathlib.Data.List.TakeWhile

/-!
The scan behind the components of a name. `depthAfter` is how deep it is after a text; it
looks back only for the keyword of an operator name, and no further than the character
before that.

* `followsOperator_append`: how far the look back goes;
* `componentsFrom_append`: a text that is complete keeps its components when a separator and
  more text follow;
* `components_eq_append`: where a list of components is cut, the name has a separator outside
  everything, and both parts have the components that they had;
* `components_eq_singleton_iff`: a name is one component when all its separators are inside
  brackets or template arguments.
-/

namespace ConstantDump.Name

/-! ## Looking back for an operator -/

/-- The characters between an operator's keyword and where the look back starts. -/
def isPassed (c : Char) : Bool := isSign c || Text.isAsciiBlank c

theorem isPassed_eq_false {c : Char} :
    isPassed c = false ↔ isSign c = false ∧ Text.isAsciiBlank c = false := by
  simp [isPassed]

theorem dropWhile_append_of_stops {p : Char → Bool} {x : Text} {c : Char}
    (h : p c = false ∨ x.dropWhile p ≠ []) (w : Text) :
    (x ++ c :: w).dropWhile p = x.dropWhile p ++ c :: w := by
  rw [List.dropWhile_append]
  split
  · rename_i he
    have hx : x.dropWhile p = [] := List.isEmpty_iff.1 he
    rcases h with hc | hne
    · rw [hx, List.dropWhile_cons_of_neg (by simp [hc])]
      rfl
    · exact absurd hx hne
  · rfl

theorem isPrefixOf?_append_of_not_mem {p : Text} {c : Char} (hc : c ∉ p) (x w : Text) :
    p.isPrefixOf? (x ++ c :: w) = (p.isPrefixOf? x).map (· ++ c :: w) := by
  induction p generalizing x with
  | nil => simp [List.isPrefixOf?]
  | cons d p ih =>
    have hd : c ≠ d := fun h => hc (h ▸ List.mem_cons_self ..)
    have hp : c ∉ p := fun h => hc (List.mem_cons_of_mem d h)
    cases x with
    | nil => simp [List.isPrefixOf?, Ne.symm hd]
    | cons e x =>
      by_cases he : d = e
      · simp [List.isPrefixOf?, he, ih hp]
      · simp [List.isPrefixOf?, he]

theorem not_mem_operatorReversed {c : Char} (h : isWordPart c = false) :
    c ∉ operatorReversed := by
  intro hm
  have all : operatorReversed.all isWordPart = true := by decide
  rw [List.all_eq_true.1 all c hm] at h
  cases h

/-- The look back does not reach past a character that is no part of a word, where it stops
there or before. -/
theorem followsOperator_append {c : Char} (hc : isWordPart c = false) {x : Text}
    (h : isPassed c = false ∨ ∃ z ∈ x, isPassed z = false) (w : Text) :
    followsOperator (x ++ c :: w) = followsOperator x := by
  have signs : isSign c = false ∨ x.dropWhile isSign ≠ [] := by
    rcases h with h | ⟨z, hz, h⟩
    · exact .inl (isPassed_eq_false.1 h).1
    · refine .inr fun hx => ?_
      have all := List.dropWhile_eq_nil_iff.1 hx z hz
      rw [(isPassed_eq_false.1 h).1] at all
      cases all
  have blanks : Text.isAsciiBlank c = false ∨
      (x.dropWhile isSign).dropWhile Text.isAsciiBlank ≠ [] := by
    rcases h with h | ⟨z, hz, h⟩
    · exact .inl (isPassed_eq_false.1 h).2
    · refine .inr fun hx => ?_
      have stays : z ∈ x.dropWhile isSign := by
        rw [← List.takeWhile_append_dropWhile (p := isSign) (l := x)] at hz
        rcases List.mem_append.1 hz with ht | hd
        · have all := List.mem_takeWhile_imp ht
          rw [(isPassed_eq_false.1 h).1] at all
          cases all
        · exact hd
      have all := List.dropWhile_eq_nil_iff.1 hx z stays
      rw [(isPassed_eq_false.1 h).2] at all
      cases all
  unfold followsOperator
  rw [dropWhile_append_of_stops signs, dropWhile_append_of_stops blanks,
    isPrefixOf?_append_of_not_mem (not_mem_operatorReversed hc)]
  cases operatorReversed.isPrefixOf? ((x.dropWhile isSign).dropWhile Text.isAsciiBlank) with
  | none => rfl
  | some rest =>
    cases rest with
    | nil => simp [hc]
    | cons d rest => rfl

/-- Two beginnings between which no look back can tell. -/
def Alike (before other : Text) : Prop :=
  ∀ x, followsOperator (x ++ before) = followsOperator (x ++ other)

theorem Alike.cons {before other : Text} (h : Alike before other) (c : Char) :
    Alike (c :: before) (c :: other) := by
  intro x
  have := h (x ++ [c])
  simpa using this

/-- Behind a colon, the look back is as at the start of a name. -/
theorem alike_nil_colon (w : Text) : Alike [] (':' :: w) := by
  intro x
  rw [List.append_nil, followsOperator_append (by decide) (.inl (by decide))]

/-! ## Depth -/

def depthAfter (before : Text) (d : Depth) : Text → Depth
  | [] => d
  | c :: rest => depthAfter (c :: before) (d.next before c) rest

theorem depthAfter_append (before : Text) (d : Depth) (u v : Text) :
    depthAfter before d (u ++ v) =
      depthAfter (u.reverse ++ before) (depthAfter before d u) v := by
  induction u generalizing before d with
  | nil => rfl
  | cons c u ih => simp [depthAfter, ih]

theorem Depth.next_congr {before other : Text}
    (h : followsOperator before = followsOperator other) (d : Depth) (c : Char) :
    d.next before c = d.next other c := by
  simp only [Depth.next, h]

/-- Only an angle bracket looks back. -/
theorem Depth.next_of_not_passed {c : Char} (h : isPassed c = false) (before other : Text)
    (d : Depth) : d.next before c = d.next other c := by
  have hl : c ≠ '<' := by
    rintro rfl
    cases h
  have hr : c ≠ '>' := by
    rintro rfl
    cases h
  simp [Depth.next, hl, hr]

@[simp] theorem Depth.next_colon (d : Depth) (before : Text) : d.next before ':' = d := by
  simp [Depth.next]

theorem depthAfter_congr {before other : Text} (h : Alike before other) (d : Depth) (t : Text) :
    depthAfter before d t = depthAfter other d t := by
  induction t generalizing before other d with
  | nil => rfl
  | cons c t ih =>
    have here : followsOperator before = followsOperator other := by simpa using h []
    rw [depthAfter, depthAfter, Depth.next_congr here]
    exact ih (h.cons c) _

/-- A separator does not change the depth, and what follows it is scanned like a name of its
own. -/
theorem depthAfter_separator (before : Text) (d : Depth) (t : Text) :
    depthAfter before d (separator ++ t) = depthAfter [] d t := by
  simp only [separator, List.cons_append, List.nil_append, depthAfter, Depth.next_colon]
  exact (depthAfter_congr (alike_nil_colon _) d t).symm

/-! ## Cutting a name -/

/-- A text that ends outside everything, and in no colon, keeps its components when a
separator and more text follow. -/
theorem componentsFrom_append {before u : Text} {d : Depth}
    (h : depthAfter before d u = .zero) (hl : u.getLast? ≠ some ':') (v : Text) :
    componentsFrom before d (u ++ (separator ++ v)) =
      componentsFrom before d u ++ components v := by
  fun_induction componentsFrom before d u with
  | case1 before d =>
    obtain rfl : d = .zero := h
    simp [separator, componentsFrom, components]
  | case2 before d c =>
    have hc : c ≠ ':' := by simpa using hl
    have hd : d.next before c = .zero := h
    simp [separator, componentsFrom, components, hc, hd]
  | case3 before d c next rest hsep ih =>
    obtain ⟨rfl, rfl, rfl⟩ := hsep
    have inner : depthAfter [] .zero rest = .zero :=
      (depthAfter_separator before .zero rest).symm.trans h
    have last : rest.getLast? ≠ some ':' := by
      cases rest with
      | nil => simp
      | cons e rest => simpa using hl
    simp [componentsFrom, ih inner last]
  | case4 before d c next rest hsep ih =>
    have last : (next :: rest).getLast? ≠ some ':' := by simpa using hl
    have := ih h last
    simp only [List.cons_append] at this ⊢
    rw [componentsFrom, if_neg hsep, this]

theorem components_append {u : Text} (h : depthAfter [] .zero u = .zero)
    (hl : u.getLast? ≠ some ':') (v : Text) :
    components (u ++ (separator ++ v)) = components u ++ components v :=
  componentsFrom_append h hl v

/-- Components that end outside everything, and in no colon, come back from their join. -/
theorem components_join_concat {scopes : List Text} {last : Text}
    (single : ∀ c ∈ scopes ++ [last], components c = [c])
    (closed : ∀ c ∈ scopes, depthAfter [] .zero c = .zero)
    (colon : ∀ c ∈ scopes, c.getLast? ≠ some ':') :
    components (join (scopes ++ [last])) = scopes ++ [last] := by
  induction scopes with
  | nil => exact single last (by simp)
  | cons first scopes ih =>
    rw [List.forall_mem_cons] at closed colon
    rw [List.cons_append, List.forall_mem_cons] at single
    rw [List.cons_append, join_cons_of_ne_nil first (by simp), List.append_assoc,
      components_append closed.1 colon.1, single.1, ih single.2 closed.2 colon.2]
    rfl

/-- A list of components that is cut in two comes from a name with a separator there,
outside everything. -/
theorem componentsFrom_eq_append {before t : Text} {d : Depth} {xs ys : List Text}
    (h : componentsFrom before d t = xs ++ ys) (hx : xs ≠ []) (hy : ys ≠ []) :
    ∃ u v, t = u ++ (separator ++ v) ∧ componentsFrom before d u = xs ∧ components v = ys ∧
      depthAfter before d u = .zero := by
  have single {p : Text} : [p] ≠ xs ++ ys := by
    intro h
    obtain ⟨x, xs', rfl⟩ := List.exists_cons_of_ne_nil hx
    simp_all
  fun_induction componentsFrom before d t generalizing xs with
  | case1 before d => exact absurd h single
  | case2 before d c => exact absurd h single
  | case3 before d c next rest hsep ih =>
    obtain ⟨rfl, rfl, rfl⟩ := hsep
    obtain ⟨x, xs, rfl⟩ := List.exists_cons_of_ne_nil hx
    obtain ⟨rfl, hrest⟩ : before.reverse = x ∧ componentsFrom [] .zero rest = xs ++ ys := by
      simpa using h
    by_cases hxs : xs = []
    · subst hxs
      exact ⟨[], rest, rfl, rfl, hrest, rfl⟩
    · obtain ⟨u, v, rfl, hu, hv, hd⟩ := ih hrest hxs (by
        intro p hp
        obtain ⟨x, xs', rfl⟩ := List.exists_cons_of_ne_nil hxs
        simp_all)
      refine ⟨separator ++ u, v, rfl, ?_, hv, ?_⟩
      · rw [← hu]
        rfl
      · rw [depthAfter_separator]
        exact hd
  | case4 before d c next rest hsep ih =>
    obtain ⟨u, v, ht, hu, hv, hd⟩ := ih h hx single
    refine ⟨c :: u, v, by rw [ht]; rfl, ?_, hv, hd⟩
    cases u with
    | nil => exact hu
    | cons e u =>
      obtain ⟨rfl, -⟩ : next = e ∧ _ := by simpa using ht
      rw [componentsFrom, if_neg hsep]
      exact hu

theorem components_eq_append {name : Text} {xs ys : List Text}
    (h : components name = xs ++ ys) (hx : xs ≠ []) (hy : ys ≠ []) :
    name = join xs ++ (separator ++ join ys) ∧ components (join xs) = xs ∧
      components (join ys) = ys ∧ depthAfter [] .zero (join xs) = .zero := by
  obtain ⟨u, v, rfl, hu, rfl, hd⟩ := componentsFrom_eq_append h hx hy
  have same : join xs = u := by
    rw [← hu]
    exact join_components u
  rw [same, join_components]
  exact ⟨rfl, hu, rfl, hd⟩

/-- Before another component, none ends in a colon: the separator would have begun there. -/
theorem getLast?_ne_colon {before t : Text} {d : Depth} {xs ys : List Text}
    (h : componentsFrom before d t = xs ++ ys) (hy : ys ≠ [])
    (start : before.head? = some ':' → d = .zero → t.head? ≠ some ':') :
    ∀ x ∈ xs, x.getLast? ≠ some ':' := by
  have single {p : Text} (hp : [p] = xs ++ ys) : xs = [] := by
    cases xs with
    | nil => rfl
    | cons x xs => simp_all
  fun_induction componentsFrom before d t generalizing xs with
  | case1 before d => simp [single h]
  | case2 before d c => simp [single h]
  | case3 before d c next rest hsep ih =>
    obtain ⟨rfl, rfl, rfl⟩ := hsep
    cases xs with
    | nil => simp
    | cons x xs =>
      obtain ⟨rfl, hrest⟩ : before.reverse = x ∧ componentsFrom [] .zero rest = xs ++ ys := by
        simpa using h
      intro x hx
      rcases List.mem_cons.1 hx with rfl | hx
      · rw [List.getLast?_reverse]
        intro hb
        exact start hb rfl rfl
      · refine ih hrest (by simp) ?_ x hx
        intro p hp
        cases xs with
        | nil => rfl
        | cons x xs => simp_all
  | case4 before d c next rest hsep ih =>
    refine ih h ?_ single
    intro hc hd hn
    obtain rfl : c = ':' := by simpa using hc
    obtain rfl : next = ':' := by simpa using hn
    exact hsep ⟨rfl, rfl, by simpa using hd⟩

theorem getLast?_ne_colon_of_components {name : Text} {xs ys : List Text}
    (h : components name = xs ++ ys) (hy : ys ≠ []) : ∀ x ∈ xs, x.getLast? ≠ some ':' :=
  getLast?_ne_colon h hy (by simp)

/-! ## One component -/

theorem componentsFrom_eq_singleton_iff {before t : Text} {d : Depth} :
    componentsFrom before d t = [before.reverse ++ t] ↔
      ∀ u v, t = u ++ (separator ++ v) → depthAfter before d u ≠ .zero := by
  have short {u v : Text} : 2 ≤ (u ++ (separator ++ v)).length := by
    simp only [separator, List.length_append, List.length_cons, List.length_nil]
    omega
  fun_induction componentsFrom before d t with
  | case1 before d =>
    simp only [List.append_nil, true_iff]
    intro u v h
    have := short (u := u) (v := v)
    rw [← h] at this
    simp at this
  | case2 before d c =>
    simp only [List.reverse_cons, true_iff]
    intro u v h
    have := short (u := u) (v := v)
    rw [← h] at this
    simp at this
  | case3 before d c next rest hsep ih =>
    obtain ⟨rfl, rfl, rfl⟩ := hsep
    constructor
    · intro h
      exact absurd (List.cons.inj h).2 (componentsFrom_ne_nil _ _ _)
    · intro h
      exact absurd rfl (h [] rest rfl)
  | case4 before d c next rest hsep ih =>
    rw [List.reverse_cons, List.append_assoc] at ih
    refine ih.trans ⟨fun h u v ht => ?_, fun h u v ht => ?_⟩
    · cases u with
      | nil =>
        obtain ⟨rfl, rfl, -⟩ : c = ':' ∧ next = ':' ∧ rest = v := by simpa [separator] using ht
        intro hd
        exact hsep ⟨rfl, rfl, hd⟩
      | cons e u =>
        obtain ⟨rfl, onward⟩ : c = e ∧ next :: rest = u ++ (separator ++ v) := by
          simpa using ht
        exact h u v onward
    · exact h (c :: u) v (by rw [ht]; rfl)

/-- A name is one component when all its separators are inside something. -/
theorem components_eq_singleton_iff {name : Text} :
    components name = [name] ↔
      ∀ u v, name = u ++ (separator ++ v) → depthAfter [] .zero u ≠ .zero :=
  componentsFrom_eq_singleton_iff

end ConstantDump.Name
