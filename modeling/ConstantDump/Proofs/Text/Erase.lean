import ConstantDump.Text.Basic
import Mathlib.Data.List.Infix

/-!
Taking every occurrence of a pattern out of a text.

* `occurrences_induction`: a text is read occurrence by occurrence, and character by character
  between them;
* `erase_append`: a text can be cut wherever no occurrence lies across the cut;
* `erase_found`: an occurrence goes, and what is on its two sides is erased on its own;
* `erase_eq_append_cons`: each character that is left comes from one of the text.
-/

namespace ConstantDump.Text

variable {p : Text}

/-! ## Occurrences from left to right -/

theorem eraseFrom_eq (p : Text) (skip : Nat) (t : Text) :
    eraseFrom p skip t = erase p (t.drop skip) := by
  induction t generalizing skip with
  | nil =>
    cases skip <;> simp [erase, eraseFrom]
  | cons c t ih =>
    cases skip with
    | zero => rfl
    | succ skip => rw [eraseFrom, ih, List.drop_succ_cons]

@[simp] theorem erase_nil (p : Text) : erase p [] = [] := by simp [erase, eraseFrom]

theorem erase_pattern_append (hp : p ≠ []) (t : Text) : erase p (p ++ t) = erase p t := by
  obtain ⟨c, q, rfl⟩ := List.exists_cons_of_ne_nil hp
  have found : (c :: q).isPrefixOf (c :: (q ++ t)) = true :=
    List.isPrefixOf_iff_prefix.2 ⟨t, rfl⟩
  rw [List.cons_append, erase, eraseFrom, if_pos found, eraseFrom_eq]
  simp

theorem erase_cons {c : Char} {t : Text} (h : ¬ p <+: c :: t) :
    erase p (c :: t) = c :: erase p t := by
  have kept : ¬ p.isPrefixOf (c :: t) = true := fun hc => h (List.isPrefixOf_iff_prefix.1 hc)
  rw [erase, eraseFrom, if_neg kept]
  rfl

/-- Every text is empty, or begins with the pattern, or begins with a character at which no
occurrence begins. -/
@[elab_as_elim]
theorem occurrences_induction {motive : Text → Prop} (hp : p ≠ []) (nil : motive [])
    (found : ∀ t, motive t → motive (p ++ t))
    (kept : ∀ c t, ¬ p <+: c :: t → motive t → motive (c :: t)) (t : Text) : motive t := by
  induction hn : t.length using Nat.strongRecOn generalizing t with
  | ind n ih =>
    subst hn
    cases t with
    | nil => exact nil
    | cons c t =>
      by_cases h : p <+: c :: t
      · obtain ⟨rest, hrest⟩ := h
        have shorter : rest.length < (c :: t).length := by
          have := List.length_pos_iff.2 hp
          rw [← hrest, List.length_append]
          omega
        rw [← hrest]
        exact found rest (ih _ shorter rest rfl)
      · exact kept c t h (ih _ (by simp) t rfl)

theorem erase_of_not_infix {t : Text} (h : ¬ p <:+: t) : erase p t = t := by
  induction t with
  | nil => exact erase_nil p
  | cons c t ih =>
    have here : ¬ p <+: c :: t := fun hc => h hc.isInfix
    have later : ¬ p <:+: t := fun hc => h (hc.trans (List.suffix_cons c t).isInfix)
    rw [erase_cons here, ih later]

/-- A text without the first character of the pattern keeps everything. -/
theorem erase_of_not_mem {c : Char} {q t : Text} (h : c ∉ t) : erase (c :: q) t = t :=
  erase_of_not_infix fun hi => h (hi.subset (List.mem_cons_self ..))

/-! ## Cutting a text -/

/-- No occurrence of the pattern begins in the first text and ends in the second. -/
def NoneAcross (p u v : Text) : Prop :=
  ∀ x y, p = x ++ y → x <:+ u → y <+: v → x = [] ∨ y = []

theorem erase_append (hp : p ≠ []) {u v : Text} (h : NoneAcross p u v) :
    erase p (u ++ v) = erase p u ++ erase p v := by
  induction u using occurrences_induction hp with
  | nil => simp
  | found t ih =>
    rw [List.append_assoc, erase_pattern_append hp, erase_pattern_append hp]
    exact ih fun x y hxy hx => h x y hxy (hx.trans (List.suffix_append ..))
  | kept c t ht ih =>
    have later := ih fun x y hxy hx => h x y hxy (hx.trans (List.suffix_cons ..))
    have here : ¬ p <+: c :: (t ++ v) := by
      rintro ⟨z, hz⟩
      rw [← List.cons_append] at hz
      rcases List.append_eq_append_iff.1 hz with ⟨w, hw, -⟩ | ⟨y, rfl, hy⟩
      · exact ht ⟨w, hw.symm⟩
      · rcases h (c :: t) y rfl List.suffix_rfl ⟨z, hy.symm⟩ with hx | rfl
        · cases hx
        · exact ht (by simp)
    rw [List.cons_append, erase_cons here, later, erase_cons ht, List.cons_append]

/-- No beginning of the pattern but the whole is an end of it. -/
def Unbordered (p : Text) : Prop := ∀ x y z, p = x ++ y → p = y ++ z → x = [] ∨ y = []

/-- A pattern that has its first character nowhere else is unbordered. -/
theorem unbordered_cons {c : Char} {q : Text} (h : c ∉ q) : Unbordered (c :: q) := by
  intro x y z hx hy
  cases x with
  | nil => exact .inl rfl
  | cons d x =>
    cases y with
    | nil => exact .inr rfl
    | cons e y =>
      obtain ⟨rfl, -⟩ : c = e ∧ q = y ++ z := by simpa using hy
      obtain ⟨-, rfl⟩ : c = d ∧ q = x ++ c :: y := by simpa using hx
      exact absurd (by simp) h

theorem erase_found (hp : p ≠ []) (hb : Unbordered p) (u v : Text) :
    erase p (u ++ (p ++ v)) = erase p u ++ erase p v := by
  have across : NoneAcross p u (p ++ v) := by
    intro x y hxy _ hy
    have shorter : y.length ≤ p.length := by
      rw [hxy, List.length_append]
      omega
    obtain ⟨z, hz⟩ := List.prefix_of_prefix_length_le hy (List.prefix_append p v) shorter
    exact hb x y z hxy hz.symm
  rw [erase_append hp across, erase_pattern_append hp]

theorem exists_last_occurrence (hp : p ≠ []) {t : Text} (h : p <:+: t) :
    ∃ u v, t = u ++ (p ++ v) ∧ ¬ p <:+: v := by
  obtain ⟨u, v, rfl⟩ := h
  induction hn : v.length using Nat.strongRecOn generalizing u v with
  | ind n ih =>
    subst hn
    by_cases hv : p <:+: v
    · obtain ⟨u', v', rfl⟩ := hv
      have shorter : v'.length < (u' ++ p ++ v').length := by
        have := List.length_pos_iff.2 hp
        simp only [List.length_append]
        omega
      obtain ⟨w, z, hw, hz⟩ := ih _ shorter (u ++ p ++ u') v' rfl
      exact ⟨w, z, by rw [← hw]; simp, hz⟩
    · exact ⟨u, v, by simp, hv⟩

/-! ## What is left -/

/-- A character that is left comes from one of the text, and so does what is left on either
side of it. -/
theorem erase_eq_append_cons (hp : p ≠ []) {t u v : Text} {c : Char}
    (h : erase p t = u ++ c :: v) :
    ∃ u₀ v₀, t = u₀ ++ c :: v₀ ∧ erase p u₀ = u ∧ erase p v₀ = v := by
  induction t using occurrences_induction hp generalizing u with
  | nil => simp at h
  | found t ih =>
    rw [erase_pattern_append hp] at h
    obtain ⟨u₀, v₀, rfl, hu, hv⟩ := ih h
    exact ⟨p ++ u₀, v₀, by simp, by rw [erase_pattern_append hp, hu], hv⟩
  | kept d t hd ih =>
    rw [erase_cons hd] at h
    cases u with
    | nil =>
      obtain ⟨rfl, hv⟩ : d = c ∧ erase p t = v := by simpa using h
      exact ⟨[], t, rfl, erase_nil p, hv⟩
    | cons e u =>
      obtain ⟨rfl, hrest⟩ : d = e ∧ erase p t = u ++ c :: v := by simpa using h
      obtain ⟨u₀, v₀, rfl, hu, hv⟩ := ih hrest
      have kept : ¬ p <+: d :: u₀ := fun hc => hd (hc.trans ⟨c :: v₀, by simp⟩)
      exact ⟨d :: u₀, v₀, rfl, by rw [erase_cons kept, hu], hv⟩

/-- The first character left stays when more text follows, unless an occurrence begins with
it. -/
theorem head?_erase_append (hp : p ≠ []) (t v : Text) :
    (erase p t).head? = none ∨ (erase p t).head? = p.head? ∨
      (erase p (t ++ v)).head? = (erase p t).head? := by
  induction t using occurrences_induction hp with
  | nil => exact .inl (by simp)
  | found t ih =>
    rwa [List.append_assoc, erase_pattern_append hp, erase_pattern_append hp]
  | kept c t hc ih =>
    right
    rw [erase_cons hc]
    by_cases h : p <+: c :: (t ++ v)
    · obtain ⟨d, q, rfl⟩ := List.exists_cons_of_ne_nil hp
      exact .inl (by simp [(List.cons_prefix_cons.1 h).1])
    · rw [List.cons_append, erase_cons h]
      exact .inr rfl

end ConstantDump.Text
