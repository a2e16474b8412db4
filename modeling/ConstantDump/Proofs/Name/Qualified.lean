import ConstantDump.Proofs.Name.Identifier
import ConstantDump.Proofs.Name.Numbered

/-!
Qualified names that are identifiers with separators between them. Main statement,
`path_join`: such a name is stored along its identifiers, as it is written.
-/

namespace ConstantDump.Name

/-! ## One identifier -/

theorem Depth.next_of_continues {c : Char} (h : continuesIdentifier c = true) (d : Depth)
    (before : Text) : d.next before c = d := by
  have other (e : Char) (he : continuesIdentifier e = false) : c ≠ e := by
    rintro rfl
    rw [h] at he
    cases he
  have opening : ¬ (c = '(' ∨ c = '[' ∨ c = '\x7b') := by
    rintro (rfl | rfl | rfl) <;> revert h <;> decide
  have closing : ¬ (c = ')' ∨ c = ']' ∨ c = '\x7d') := by
    rintro (rfl | rfl | rfl) <;> revert h <;> decide
  have less := other '<' (by decide)
  have greater := other '>' (by decide)
  simp only [not_or] at opening closing
  simp [Depth.next, opening, closing, less, greater]

/-- An identifier ends where it starts, outside everything. -/
theorem depthAfter_identifier {name : Text} (h : isIdentifier name = true) (before : Text)
    (d : Depth) : depthAfter before d name = d := by
  have all : ∀ c ∈ name, continuesIdentifier c = true := fun c => continuesIdentifier_of_mem h
  clear h
  induction name generalizing before with
  | nil => rfl
  | cons c name ih =>
    rw [depthAfter, Depth.next_of_continues (all c (by simp))]
    exact ih _ fun e he => all e (by simp [he])

theorem components_identifier {name : Text} (h : isIdentifier name = true) :
    components name = [name] := by
  refine components_eq_singleton_iff.2 fun u v cut _ => ?_
  have colon : ':' ∉ name := not_mem_of_isIdentifier h (by decide)
  exact colon (by rw [cut]; simp [separator])

/-! ## Identifiers with separators between them -/

variable {parts : List Text} {part : Text}

theorem mem_join {c : Char} (h : c ∈ join parts) : c = ':' ∨ ∃ part ∈ parts, c ∈ part := by
  induction parts with
  | nil => cases h
  | cons part parts ih =>
    by_cases hp : parts = []
    · subst hp
      exact .inr ⟨part, by simp, h⟩
    · rw [join_cons_of_ne_nil _ hp, List.append_assoc, List.mem_append, List.mem_append] at h
      rcases h with here | colon | later
      · exact .inr ⟨part, by simp, here⟩
      · refine .inl ?_
        simpa [separator] using colon
      · rcases ih later with colon | ⟨other, ho, hc⟩
        · exact .inl colon
        · exact .inr ⟨other, by simp [ho], hc⟩

/-- What can occur in such a name: the characters of identifiers, and colons. -/
theorem not_mem_join {c : Char} (h : ∀ part ∈ parts, isIdentifier part = true) (hc : c ≠ ':')
    (hn : continuesIdentifier c = false) : c ∉ join parts := by
  intro mem
  rcases mem_join mem with colon | ⟨part, hp, hm⟩
  · exact hc colon
  · exact not_mem_of_isIdentifier (h part hp) hn hm

/-- It starts like its first identifier. -/
theorem head?_join (h : ∀ part ∈ parts, isIdentifier part = true) (hne : parts ≠ []) :
    ∃ c, (join parts).head? = some c ∧ continuesIdentifier c = true := by
  obtain ⟨first, rest, rfl⟩ := List.exists_cons_of_ne_nil hne
  have here := h first (by simp)
  obtain ⟨c, name, rfl⟩ := List.exists_cons_of_ne_nil (ne_nil_of_isIdentifier here)
  refine ⟨c, ?_, continuesIdentifier_of_mem here (by simp)⟩
  cases rest with
  | nil => rfl
  | cons second rest => rw [join_cons_of_ne_nil _ (by simp)]; rfl

/-- It ends like its last identifier. -/
theorem getLast?_join (h : ∀ part ∈ parts, isIdentifier part = true) (hne : parts ≠ []) :
    ∃ c, (join parts).getLast? = some c ∧ continuesIdentifier c = true := by
  obtain ⟨scopes, last, rfl⟩ := (List.eq_nil_or_concat' parts).resolve_left hne
  have here := h last (by simp)
  obtain ⟨begin, c, rfl⟩ := (List.eq_nil_or_concat' last).resolve_left (ne_nil_of_isIdentifier here)
  refine ⟨c, ?_, continuesIdentifier_of_mem here (by simp)⟩
  rw [join_concat, ← List.append_assoc, List.getLast?_concat]

theorem components_join (h : ∀ part ∈ parts, isIdentifier part = true) (hne : parts ≠ []) :
    components (join parts) = parts := by
  obtain ⟨scopes, last, rfl⟩ := (List.eq_nil_or_concat' parts).resolve_left hne
  refine components_join_concat (fun part hp => components_identifier (h part hp))
    (fun part hp => ?_) (fun part hp colon => ?_)
  · exact depthAfter_identifier (h part (List.mem_append_left _ hp)) [] .zero
  · exact not_mem_of_isIdentifier (h part (List.mem_append_left _ hp)) (by decide)
      (List.mem_of_getLast? colon)

/-- It has no separator in front and no marker. -/
theorem normalize_join (h : ∀ part ∈ parts, isIdentifier part = true) (hne : parts ≠ []) :
    normalize (join parts) = join parts := by
  have parenthesis : '(' ∉ join parts := not_mem_join h (by decide) (by decide)
  refine normalize_of_unmarked ?_ fun marker => parenthesis (marker.subset (by decide))
  rintro ⟨rest, hs⟩
  obtain ⟨c, head, continues⟩ := head?_join h hne
  rw [← hs] at head
  obtain rfl : ':' = c := by simpa [separator] using head
  revert continues
  decide

/-- It is stored along its identifiers. -/
theorem path_join (h : ∀ part ∈ parts, isIdentifier part = true) (hne : parts ≠ []) :
    path (join parts) = parts := by
  rw [path, normalize_join h hne, components_join h hne]

theorem splitLast_join (h : ∀ part ∈ parts, isIdentifier part = true)
    (hp : isIdentifier part = true) : (splitLast (join (parts ++ [part]))).2 = part := by
  have all : ∀ other ∈ parts ++ [part], isIdentifier other = true := by
    intro other ho
    rcases List.mem_append.1 ho with hi | hi
    · exact h other hi
    · rwa [List.mem_singleton.1 hi]
  rw [splitLast_of_components (components_join all (by simp))]

theorem join_concat_eq (hne : parts ≠ []) (part : Text) :
    join (parts ++ [part]) = join parts ++ (separator ++ part) := by
  rw [join_concat, lead_eq_join hne, List.append_assoc]

end ConstantDump.Name
