import ConstantDump.Literal.Form
import ConstantDump.Proofs.Bracket.Split

/-!
The parenthesis at which a call splits. Main statement, `call?_eq_some_iff`: a text
splits into a type name and parameters exactly when the parentheses of the parameters
match one another, those between quotes included, and the type name has as many opening
ones as closing ones.
-/

namespace ConstantDump.Literal

/-- The parentheses of a text match one another, whether quoted or not: as many open as
close, and no end of the text opens more than it closes. -/
def ParenthesesMatch (t : Text) : Prop :=
  t.count '(' = t.count ')' ∧ ∀ u, u <:+ t → u.count '(' ≤ u.count ')'

theorem parenthesesMatch_iff_drop {t : Text} :
    ParenthesesMatch t ↔ t.count '(' = t.count ')' ∧
      ∀ n < t.length, (t.drop n).count '(' ≤ (t.drop n).count ')' := by
  unfold ParenthesesMatch
  apply and_congr_right
  intro _
  constructor
  · intro h n _
    exact h _ (List.drop_suffix n t)
  intro h u hu
  have hd := List.suffix_iff_eq_drop.1 hu
  by_cases hn : t.length - u.length < t.length
  · rw [hd]
    exact h _ hn
  · obtain rfl : u = [] := by
      rw [hd]
      exact List.drop_eq_nil_of_le (by omega)
    simp

instance (t : Text) : Decidable (ParenthesesMatch t) :=
  decidable_of_iff _ parenthesesMatch_iff_drop.symm

theorem parenthesesMatch_of_not_mem {t : Text} (ho : '(' ∉ t) (hc : ')' ∉ t) :
    ParenthesesMatch t := by
  refine ⟨by rw [List.count_eq_zero.2 ho, List.count_eq_zero.2 hc], fun u hu => ?_⟩
  rw [List.count_eq_zero.2 fun h => ho (hu.subset h)]
  exact Nat.zero_le _

theorem suffix_append_cases {v t u : Text} (h : v <:+ t ++ u) :
    v <:+ u ∨ ∃ w, v = w ++ u ∧ w <:+ t := by
  obtain ⟨s, hs⟩ := h
  rcases List.append_eq_append_iff.1 hs with ⟨w, ht, hv⟩ | ⟨w, -, hu⟩
  · exact .inr ⟨w, hv, s, ht.symm⟩
  · exact .inl ⟨w, hu.symm⟩

theorem ParenthesesMatch.append {t u : Text} (ht : ParenthesesMatch t)
    (hu : ParenthesesMatch u) : ParenthesesMatch (t ++ u) := by
  refine ⟨by rw [List.count_append, List.count_append, ht.1, hu.1], fun v hv => ?_⟩
  rcases suffix_append_cases hv with hv | ⟨w, rfl, hw⟩
  · exact hu.2 v hv
  · have := ht.2 w hw
    rw [List.count_append, List.count_append, hu.1]
    omega

theorem ParenthesesMatch.enclosed {t : Text} (h : ParenthesesMatch t) :
    ParenthesesMatch ('(' :: (t ++ [')'])) := by
  have whole : ('(' :: (t ++ [')'])).count '(' = ('(' :: (t ++ [')'])).count ')' := by
    simp [h.1]
  refine ⟨whole, fun v hv => ?_⟩
  rcases List.suffix_cons_iff.1 hv with rfl | hv
  · exact Nat.le_of_eq whole
  · rcases suffix_append_cases hv with hv | ⟨w, rfl, hw⟩
    · rcases List.suffix_cons_iff.1 hv with rfl | hv
      · simp
      · rw [List.suffix_nil.1 hv]
        simp
    · have := h.2 w hw
      simp
      omega

/-- Outside quotes, brackets that close one another include the parentheses. -/
theorem parenthesesMatch_of_isBalanced {t : Text} (quotes : ∀ c ∈ t, Bracket.isQuote c = false)
    (balanced : Bracket.isBalanced t = true) : ParenthesesMatch t := by
  have whole : Bracket.after? .start t = some .start := Bracket.closes_iff_after?.1 balanced
  have counted {closers : List Char} {u : Text} (inside : u <:+ t)
      (h : Bracket.after? (.plain closers) u = some .start) :
      u.count ')' = closers.count ')' + u.count '(' := by
    obtain ⟨none_left, start, counts⟩ :=
      Bracket.count_paren_of_after? (fun c mem => quotes c (inside.subset mem)) h
    cases start
    simpa using counts
  refine ⟨?_, fun u inside => ?_⟩
  · simpa using (counted List.suffix_rfl whole).symm
  · obtain ⟨w, rfl⟩ := inside
    rw [Bracket.after?_append] at whole
    obtain ⟨s, first, rest⟩ := Option.bind_eq_some_iff.1 whole
    obtain ⟨closers, rfl, -⟩ := Bracket.count_paren_of_after?
      (fun c mem => quotes c (List.mem_append_left u mem)) first
    have := counted (List.suffix_append w u) rest
    omega

/-- A text in reverse that opens `depth` parentheses more than it closes, and no
beginning of it opens more than that. -/
def Opens (depth : Nat) (reversed : Text) : Prop :=
  reversed.count '(' = reversed.count ')' + depth ∧
    ∀ u, u <+: reversed → u.count '(' ≤ u.count ')' + depth

theorem opens_nil {depth : Nat} : Opens depth [] ↔ depth = 0 := by
  unfold Opens
  constructor
  · rintro ⟨h, -⟩
    simpa using h.symm
  · rintro rfl
    exact ⟨rfl, fun u hu => by simp [List.prefix_nil.1 hu]⟩

theorem opens_cons {depth : Nat} {c : Char} {t : Text} :
    Opens depth (c :: t) ↔
      (c :: t).count '(' = (c :: t).count ')' + depth ∧
        ∀ u, u <+: t → (c :: u).count '(' ≤ (c :: u).count ')' + depth := by
  unfold Opens
  apply and_congr_right
  intro _
  constructor
  · intro h u hu
    exact h _ (List.cons_prefix_cons.2 ⟨rfl, hu⟩)
  intro h u hu
  rcases List.prefix_cons_iff.1 hu with rfl | ⟨v, rfl, hv⟩
  · simp
  · exact h v hv

theorem opens_cons_close {depth : Nat} {t : Text} :
    Opens depth (')' :: t) ↔ Opens (depth + 1) t := by
  rw [opens_cons]
  unfold Opens
  refine and_congr ?_ (forall₂_congr fun u _ => ?_)
  · simp; omega
  · simp; omega

theorem opens_cons_open {depth : Nat} {t : Text} :
    Opens (depth + 1) ('(' :: t) ↔ Opens depth t := by
  rw [opens_cons]
  unfold Opens
  refine and_congr ?_ (forall₂_congr fun u _ => ?_)
  · simp; omega
  · simp; omega

theorem not_opens_zero_cons_open {t : Text} : ¬ Opens 0 ('(' :: t) := by
  rintro ⟨-, h⟩
  have := h ['('] (by simp [List.cons_prefix_cons])
  simp at this

theorem opens_cons_other {depth : Nat} {c : Char} {t : Text} (ho : c ≠ '(') (hc : c ≠ ')') :
    Opens depth (c :: t) ↔ Opens depth t := by
  rw [opens_cons]
  unfold Opens
  refine and_congr ?_ (forall₂_congr fun u _ => ?_)
  · simp [ho, hc]
  · simp [ho, hc]

theorem parenthesesMatch_iff_opens {t : Text} : ParenthesesMatch t ↔ Opens 0 t.reverse := by
  unfold ParenthesesMatch Opens
  simp only [List.count_reverse, Nat.add_zero]
  apply and_congr_right
  intro _
  constructor
  · intro h u hu
    have := h u.reverse (List.reverse_prefix.1 (by simpa using hu))
    simpa using this
  · intro h u hu
    have := h u.reverse (List.reverse_prefix.2 hu)
    simpa using this

/-- One more character has been read when the scan stops, unless it stops at that one. -/
theorem exists_read_cons {depth d : Nat} {c : Char} {after before typeName parameters : Text}
    (hd : ∀ read, Opens depth (c :: read) ↔ Opens d read)
    (hstop : ¬ (c = '(' ∧ Opens depth [])) :
    (∃ read, c :: before = read ++ '(' :: typeName.reverse ∧
        parameters = read.reverse ++ after ∧ typeName ≠ [] ∧ Opens depth read) ↔
      ∃ read, before = read ++ '(' :: typeName.reverse ∧
        parameters = read.reverse ++ c :: after ∧ typeName ≠ [] ∧ Opens d read := by
  constructor
  · rintro ⟨read, hb, rfl, hne, ho⟩
    cases read with
    | nil =>
      simp only [List.nil_append, List.cons.injEq] at hb
      exact absurd ⟨hb.1, ho⟩ hstop
    | cons first read =>
      simp only [List.cons_append, List.cons.injEq] at hb
      obtain ⟨rfl, rfl⟩ := hb
      exact ⟨read, rfl, by simp, hne, (hd read).1 ho⟩
  · rintro ⟨read, rfl, rfl, hne, ho⟩
    exact ⟨c :: read, rfl, by simp, hne, (hd read).2 ho⟩

/-- With nothing left open, the scan stops at the first opening parenthesis. -/
theorem exists_read_open {after before typeName parameters : Text} :
    (∃ read, '(' :: before = read ++ '(' :: typeName.reverse ∧
        parameters = read.reverse ++ after ∧ typeName ≠ [] ∧ Opens 0 read) ↔
      before = typeName.reverse ∧ parameters = after ∧ typeName ≠ [] := by
  constructor
  · rintro ⟨read, hb, rfl, hne, ho⟩
    cases read with
    | nil => exact ⟨by simpa using hb, rfl, hne⟩
    | cons first read =>
      simp only [List.cons_append, List.cons.injEq] at hb
      obtain ⟨rfl, -⟩ := hb
      exact absurd ho not_opens_zero_cons_open
  · rintro ⟨rfl, rfl, hne⟩
    exact ⟨[], rfl, rfl, hne, opens_nil.2 rfl⟩

/-- Where the scan from the right stops: what it has read opens exactly what `depth`
closing parentheses leave open, and the parenthesis before that is the one. -/
theorem openingFrom_eq_some_iff {depth : Nat} {after before typeName parameters : Text} :
    openingFrom depth after before = some (typeName, parameters) ↔
      ∃ read, before = read ++ '(' :: typeName.reverse ∧
        parameters = read.reverse ++ after ∧ typeName ≠ [] ∧ Opens depth read := by
  fun_induction openingFrom depth after before with
  | case1 => simp
  | case2 depth after before ih =>
    rw [ih, exists_read_cons (fun _ => opens_cons_close) (by simp)]
  | case3 after =>
    -- Nothing stands before the parenthesis.
    rw [exists_read_open]
    simp +contextual
  | case4 after before hb =>
    rw [exists_read_open]
    constructor
    · rintro ⟨⟩
      exact ⟨by simp, rfl, by simpa using hb⟩
    · rintro ⟨rfl, rfl, -⟩
      simp
  | case5 depth after before hdepth _ ih =>
    obtain ⟨d, rfl⟩ := Nat.exists_eq_add_one_of_ne_zero hdepth
    rw [ih, Nat.add_sub_cancel, exists_read_cons (fun _ => opens_cons_open) (by simp [opens_nil])]
  | case6 depth after c before hclose hopen ih =>
    rw [ih, exists_read_cons (fun _ => opens_cons_other hopen hclose) (by simp [hopen])]

/-- Where a call splits. -/
theorem call?_eq_some_iff {raw typeName parameters : Text} :
    call? raw = some (typeName, parameters) ↔
      raw = typeName ++ '(' :: parameters ++ [')'] ∧ typeName ≠ [] ∧
        ParenthesesMatch parameters ∧ typeName.count '(' = typeName.count ')' := by
  rw [parenthesesMatch_iff_opens]
  unfold call?
  constructor
  · intro h
    obtain ⟨body, hb, h⟩ := Option.bind_eq_some_iff.1 h
    split at h
    · rename_i hcount
      obtain ⟨read, hr, hp, hne, ho⟩ := openingFrom_eq_some_iff.1 h
      obtain rfl : read = parameters.reverse := by simp [hp]
      obtain rfl : body = typeName ++ '(' :: parameters := by
        rw [← List.reverse_reverse body, hr]
        simp
      rw [Text.isSuffixOf?_eq_some_iff.1 hb] at hcount ⊢
      refine ⟨by simp, hne, ho, ?_⟩
      have := ho.1
      simp only [List.count_append, List.count_cons, List.count_reverse] at this hcount
      simp at hcount
      omega
    · cases h
  · rintro ⟨rfl, hne, ho, hcount⟩
    refine Option.bind_eq_some_iff.2
      ⟨typeName ++ '(' :: parameters, Text.isSuffixOf?_eq_some_iff.2 (by simp), ?_⟩
    have hparameters := ho.1
    rw [if_pos (by
      simp only [List.count_append, List.count_cons, List.count_reverse] at hparameters ⊢
      simp
      omega)]
    exact openingFrom_eq_some_iff.2 ⟨parameters.reverse, by simp, by simp, hne, ho⟩

end ConstantDump.Literal
