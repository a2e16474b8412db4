import ConstantDump.Text.Basic
import ConstantDump.Text.Blank
import Mathlib.Data.List.DropRight
import Mathlib.Data.List.TakeWhile

/-!
Texts without the blanks at their ends.

* `trim_of_ends`, `ends_of_trimmed`: a text is trimmed when it is empty or neither starts nor ends
  with a blank;
* `trim_trim`: trimming once is enough;
* `trim_spaced`: a trimmed text is what is left when blanks around it go.
-/

namespace ConstantDump.Text

theorem mem_of_mem_trim {c : Char} {t : Text} (h : c ∈ trim t) : c ∈ t := by
  simp only [trim, trimEnd, List.mem_reverse] at h
  have hs := (List.dropWhile_sublist isBlank).mem h
  exact (List.dropWhile_sublist isBlank).mem (List.mem_reverse.1 hs)

/-! ## The start -/

theorem isBlank_head_trimStart {c : Char} {t rest : Text} (h : trimStart t = c :: rest) :
    isBlank c = false := by
  have hne : t.dropWhile isBlank ≠ [] := by
    rw [show t.dropWhile isBlank = c :: rest from h]
    simp
  have hc := List.head_dropWhile_not isBlank hne
  rw [← hc]
  congr 1
  simp [show t.dropWhile isBlank = c :: rest from h]

/-- A text that starts with no blank keeps its start. -/
theorem trimStart_of_head? {t : Text} {c : Char} (h : t.head? = some c)
    (hc : isBlank c = false) : trimStart t = t := by
  obtain ⟨rest, rfl⟩ := List.head?_eq_some_iff.1 h
  exact List.dropWhile_cons_of_neg (by simp [hc])

theorem takeWhile_ne_nil_iff {t : Text} :
    t.takeWhile isBlank ≠ [] ↔ t.head?.any isBlank = true := by
  cases t with
  | nil => simp
  | cons c t => cases hc : isBlank c <;> simp [hc]

theorem trimStart_of_isAllBlank {t : Text} (h : isAllBlank t = true) : trimStart t = [] :=
  List.dropWhile_eq_nil_iff.2 (List.all_eq_true.1 h)

theorem trimStart_blanks_append {blanks : Text} (h : blanks.all isBlank) (t : Text) :
    trimStart (blanks ++ t) = trimStart t :=
  List.dropWhile_append_of_pos (List.all_eq_true.1 h)

theorem trim_blanks_append {blanks : Text} (h : blanks.all isBlank) (t : Text) :
    trim (blanks ++ t) = trim t := by
  rw [trim, trimStart_blanks_append h, trim]

/-! ## The end -/

theorem trimEnd_cons {c : Char} (h : isBlank c = false) (t : Text) :
    trimEnd (c :: t) = c :: trimEnd t := by
  simp only [trimEnd, List.reverse_cons, List.dropWhile_append]
  split
  · rename_i he
    simp [List.isEmpty_iff.1 he, h]
  · simp

theorem trimEnd_concat (t : Text) (c : Char) :
    trimEnd (t ++ [c]) = if isBlank c then trimEnd t else t ++ [c] := by
  simp only [trimEnd, List.reverse_append, List.reverse_cons, List.reverse_nil, List.nil_append,
    List.singleton_append, List.dropWhile_cons]
  split
  · rfl
  · simp

/-- A text that ends in no blank keeps its end. -/
theorem trimEnd_of_getLast? {t : Text} {c : Char} (h : t.getLast? = some c)
    (hc : isBlank c = false) : trimEnd t = t := by
  obtain ⟨begin, rfl⟩ := List.getLast?_eq_some_iff.1 h
  rw [trimEnd_concat, hc]
  rfl

theorem trimEnd_append_blanks {blanks : Text} (h : blanks.all isBlank) (t : Text) :
    trimEnd (t ++ blanks) = trimEnd t := by
  have hb : ∀ c ∈ blanks.reverse, isBlank c = true := fun c hc =>
    List.all_eq_true.1 h c (List.mem_reverse.1 hc)
  rw [trimEnd, List.reverse_append, List.dropWhile_append_of_pos hb, trimEnd]

/-- The last character that is no blank is that of every end which has one. -/
theorem getLast?_trimEnd_of_suffix {c : Char} {t u : Text} (hs : u <:+ t)
    (h : (trimEnd u).getLast? = some c) : (trimEnd t).getLast? = some c := by
  obtain ⟨before, rfl⟩ := hs
  simp only [trimEnd, List.getLast?_reverse] at h ⊢
  obtain ⟨rest, hd⟩ := List.head?_eq_some_iff.1 h
  simp [List.dropWhile_append, hd]

/-- A text is what it is without the blanks at its end, and those blanks. -/
theorem exists_trimEnd_append (t : Text) :
    ∃ after : Text, after.all isBlank = true ∧ t = trimEnd t ++ after := by
  refine ⟨(t.reverse.takeWhile isBlank).reverse, ?_, ?_⟩
  · rw [List.all_reverse, List.all_takeWhile]
  · rw [trimEnd, ← List.reverse_append, List.takeWhile_append_dropWhile, List.reverse_reverse]

/-! ## Both -/

/-- Trimming keeps the first character that is no blank. -/
theorem head?_trim {c : Char} {t rest : Text} (h : trimStart t = c :: rest) :
    (trim t).head? = some c := by
  rw [trim, h, trimEnd_cons (isBlank_head_trimStart h)]
  rfl

theorem trim_of_isAllBlank {t : Text} (h : isAllBlank t = true) : trim t = [] := by
  rw [trim, trimStart_of_isAllBlank h]
  rfl

/-- What neither starts nor ends with a blank is trimmed. -/
theorem trim_of_ends {t : Text} {first last : Char} (hf : t.head? = some first)
    (first_solid : isBlank first = false) (hl : t.getLast? = some last)
    (last_solid : isBlank last = false) : trim t = t := by
  rw [trim, trimStart_of_head? hf first_solid, trimEnd_of_getLast? hl last_solid]

/-- The ends of a trimmed text, if there is anything of it. -/
theorem ends_of_trimmed {t : Text} (trimmed : trim t = t) (some_text : t ≠ []) :
    (∃ c, t.head? = some c ∧ isBlank c = false) ∧
      ∃ c, t.getLast? = some c ∧ isBlank c = false := by
  cases visible : trimStart t with
  | nil =>
    rw [trim, visible] at trimmed
    exact absurd trimmed.symm some_text
  | cons first rest =>
    refine ⟨⟨first, ?_, isBlank_head_trimStart visible⟩, ?_⟩
    · rw [← head?_trim visible, trimmed]
    · have shape : (trimStart t).reverse.dropWhile isBlank = t.reverse :=
        List.reverse_eq_iff.1 trimmed
      have some_left : (trimStart t).reverse.dropWhile isBlank ≠ [] := by
        rw [shape]
        simpa using some_text
      refine ⟨_, ?_, List.head_dropWhile_not isBlank some_left⟩
      rw [← List.head?_eq_some_head some_left, shape, List.head?_reverse]

theorem trim_trim (t : Text) : trim (trim t) = trim t := by
  cases visible : trimStart t with
  | nil =>
    rw [trim, trim, visible]
    rfl
  | cons c rest =>
    have start : trimStart (trim t) = trim t :=
      trimStart_of_head? (head?_trim visible) (isBlank_head_trimStart visible)
    rw [trim, start, trim, trimEnd, trimEnd, List.reverse_reverse, List.dropWhile_idempotent]

/-- A text is its trimmed part between the blanks it starts with and others. -/
theorem exists_trim_append (t : Text) :
    ∃ after : Text, after.all isBlank = true ∧
      t = t.takeWhile isBlank ++ (trim t ++ after) := by
  obtain ⟨after, blank, shape⟩ := exists_trimEnd_append (trimStart t)
  refine ⟨after, blank, ?_⟩
  rw [trim, ← shape, trimStart, List.takeWhile_append_dropWhile]

/-- A text that is trimmed is what is left when blanks around it go. -/
theorem trim_spaced {before after : Text} (hb : before.all isBlank) (ha : after.all isBlank)
    {t : Text} (trimmed : trim t = t) : trim (before ++ (t ++ after)) = t := by
  rw [trim_blanks_append hb]
  by_cases empty : t = []
  · rw [empty, List.nil_append, trim_of_isAllBlank ha]
  · obtain ⟨⟨first, hf, solid⟩, last, hl, last_solid⟩ := ends_of_trimmed trimmed empty
    have stays : trimStart (t ++ after) = t ++ after :=
      trimStart_of_head? (by simp [List.head?_append, hf]) solid
    rw [trim, stays, trimEnd_append_blanks ha, trimEnd_of_getLast? hl last_solid]

end ConstantDump.Text
