import ConstantDump.Literal.Decode
import ConstantDump.Proofs.Name.Component

/-!
Template arguments and components. Leaving out the arguments and looking for separators are two
scans, which count the same lists of arguments.

* `template_next`: the count of the one is that of the other;
* `withoutTemplate_append`: a text that leaves no list open loses its arguments whatever follows
  behind a separator;
* `withoutTemplate_join_components`: a name loses its arguments component by component, for the
  look-up of a type and for the type name of a record alike.
-/

namespace ConstantDump.Name

/-- Brackets do not count, and an operator's signs open and close nothing. -/
theorem template_next (d : Depth) (before : Text) (c : Char) :
    (d.next before c).template =
      if c = '<' && !followsOperator before then d.template + 1
      else if c = '>' && !followsOperator before then d.template - 1
      else d.template := by
  unfold Depth.next
  by_cases opening : c = '(' ∨ c = '[' ∨ c = '\x7b'
  · rcases opening with rfl | rfl | rfl <;> rfl
  by_cases closing : c = ')' ∨ c = ']' ∨ c = '\x7d'
  · rcases closing with rfl | rfl | rfl <;> rfl
  rw [not_or, not_or] at opening closing
  simp only [opening, closing, decide_false, Bool.or_self, Bool.false_eq_true, ↓reduceIte]
  split
  · rfl
  · split <;> rfl

/-- A character is kept or left out, whatever follows it, and the depth goes on as in the scan for
separators. -/
theorem withoutTemplateFrom_cons (before : Text) (d : Depth) (c : Char) :
    ∃ kept, ∀ rest, withoutTemplateFrom before d.template (c :: rest) =
      kept ++ withoutTemplateFrom (c :: before) (d.next before c).template rest := by
  simp only [withoutTemplateFrom, template_next]
  by_cases opens : (c = '<' && !followsOperator before) = true
  · exact ⟨[], fun rest => by simp only [opens, ↓reduceIte, List.nil_append]⟩
  · by_cases closes : (c = '>' && !followsOperator before) = true
    · by_cases inside : 0 < d.template
      · exact ⟨[], fun rest => by simp [opens, closes, inside]⟩
      · -- A `>` that closes nothing stays, and the depth stays zero.
        have outside : d.template = 0 := Nat.eq_zero_of_not_pos inside
        exact ⟨[c], fun rest => by simp [opens, closes, outside]⟩
    · by_cases outside : d.template = 0
      · exact ⟨[c], fun rest => by simp [opens, closes, outside]⟩
      · exact ⟨[], fun rest => by simp [opens, closes, outside]⟩

theorem withoutTemplateFrom_append (before : Text) (d : Depth) (u v : Text) :
    withoutTemplateFrom before d.template (u ++ v) =
      withoutTemplateFrom before d.template u ++
        withoutTemplateFrom (u.reverse ++ before) (depthAfter before d u).template v := by
  induction u generalizing before d with
  | nil => rfl
  | cons c u ih =>
    obtain ⟨kept, step⟩ := withoutTemplateFrom_cons before d c
    rw [List.cons_append, step, step, ih, depthAfter, List.reverse_cons, List.append_assoc,
      List.append_assoc, List.singleton_append]

theorem withoutTemplateFrom_congr {before other : Text} (h : Alike before other) (depth : Nat)
    (t : Text) : withoutTemplateFrom before depth t = withoutTemplateFrom other depth t := by
  induction t generalizing before other depth with
  | nil => rfl
  | cons c t ih =>
    have here : followsOperator before = followsOperator other := by simpa using h []
    have onward := ih (h.cons c)
    simp only [withoutTemplateFrom, here, onward]

/-- A separator outside of arguments is kept, and what follows it is read like a name of its
own. -/
theorem withoutTemplateFrom_separator (before t : Text) :
    withoutTemplateFrom before 0 (separator ++ t) = separator ++ withoutTemplate t := by
  have anew := withoutTemplateFrom_congr (alike_nil_colon (':' :: before)) 0 t
  simp [separator, withoutTemplateFrom, withoutTemplate, anew]

theorem withoutTemplate_append {u : Text} (h : depthAfter [] .zero u = .zero) (v : Text) :
    withoutTemplate (u ++ (separator ++ v)) =
      withoutTemplate u ++ (separator ++ withoutTemplate v) := by
  have cut := withoutTemplateFrom_append [] .zero u (separator ++ v)
  rw [h, Depth.zero, withoutTemplateFrom_separator] at cut
  exact cut

theorem withoutTemplate_join {scopes : List Text}
    (closed : ∀ c ∈ scopes, depthAfter [] .zero c = .zero) (last : Text) :
    withoutTemplate (join (scopes ++ [last])) =
      join (scopes.map withoutTemplate ++ [withoutTemplate last]) := by
  induction scopes with
  | nil => rfl
  | cons first scopes ih =>
    obtain ⟨here, later⟩ := List.forall_mem_cons.1 closed
    rw [List.cons_append, join_cons_of_ne_nil first (by simp), List.append_assoc,
      withoutTemplate_append here, ih later, List.map_cons, List.cons_append,
      join_cons_of_ne_nil _ (by simp), List.append_assoc]

/-- The second look-up of a type is the same as the first one where there is nothing to leave
out. -/
theorem typeOf?_eq (types : Types) (name : Text) :
    Literal.typeOf? types name = (types name <|> types (withoutTemplate name)) := by
  rw [Literal.typeOf?]
  by_cases same : withoutTemplate name = name
  · simp only [same, ↓reduceIte]
    cases types name <;> rfl
  · simp only [same, ↓reduceIte]

/-- A name that is joined from components loses its template arguments component by component: it
becomes the join of the components without theirs. Under that join a call looks for its type when
there is none under the name itself. Its last member is what the values of a record of the name
are called by, with an underscore in front when it is a reserved word. -/
theorem withoutTemplate_join_components {scopes : List Text} {last : Text}
    (h : ∀ c ∈ scopes ++ [last], IsComponent c) (colon : ∀ c ∈ scopes, c.getLast? ≠ some ':') :
    withoutTemplate (join (scopes ++ [last])) =
      join (scopes.map withoutTemplate ++ [withoutTemplate last]) ∧
    (∀ types : Types, Literal.typeOf? types (join (scopes ++ [last])) =
      (types (join (scopes ++ [last])) <|>
        types (join (scopes.map withoutTemplate ++ [withoutTemplate last])))) ∧
    Record.typeNameOf (join (scopes ++ [last])) =
      if isReserved (withoutTemplate last) then '_' :: withoutTemplate last
      else withoutTemplate last := by
  have closed : ∀ c ∈ scopes, depthAfter [] .zero c = .zero :=
    fun c mem => (h c (List.mem_append_left _ mem)).closed
  have single : ∀ c ∈ scopes ++ [last], components c = [c] :=
    fun c mem => splitFirst_eq_self_iff.1 (h c mem).single
  have stripped := withoutTemplate_join closed last
  have apart : (splitLast (join (scopes ++ [last]))).2 = last := by
    rw [splitLast_of_components (components_join_concat single closed colon)]
  refine ⟨stripped, fun types => ?_, ?_⟩
  · rw [typeOf?_eq, stripped]
  · rw [Record.typeNameOf, apart]

theorem withoutTemplate_join_components_innerScopes :
    (∀ c ∈ innerScopes ++ ["union<a::B>".toList], IsComponent c) ∧
    (∀ c ∈ innerScopes, c.getLast? ≠ some ':') ∧
    withoutTemplate (join (innerScopes ++ ["union<a::B>".toList])) =
      ("std::Box::f(std::string, int)::operator<::operator<=>::operator->" ++
        "::operator<<(std::ostream &, int)::union").toList ∧
    Record.typeNameOf (join (innerScopes ++ ["union<a::B>".toList])) = "_union".toList := by
  have components : ∀ c ∈ innerScopes ++ ["union<a::B>".toList], IsComponent c := by
    decide +kernel
  have colons : ∀ c ∈ innerScopes, c.getLast? ≠ some ':' := by decide +kernel
  obtain ⟨stripped, -, typeName⟩ := withoutTemplate_join_components components colons
  refine ⟨components, colons, ?_, ?_⟩
  · rw [stripped]
    decide +kernel
  · rw [typeName]
    decide +kernel

end ConstantDump.Name
