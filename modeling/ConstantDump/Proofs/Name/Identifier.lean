import ConstantDump.Name.Identifier
import ConstantDump.Text.Blank

/-!
What does not occur in identifiers.
-/

namespace ConstantDump

namespace Text

/-- A character in one of the ranges is in none that lies apart from them. -/
theorem inRanges_of_disjoint {ranges others : List (Nat × Nat)} {c : Char}
    (apart : ∀ range ∈ ranges, ∀ other ∈ others, range.2 < other.1 ∨ other.2 < range.1)
    (h : inRanges ranges c = true) : inRanges others c = false := by
  obtain ⟨range, hr, from_start, to_end⟩ := inRanges_iff.1 h
  refine Bool.eq_false_iff.2 fun ho => ?_
  obtain ⟨other, hm, from_start', to_end'⟩ := inRanges_iff.1 ho
  rcases apart range hr other hm with before | after <;> omega

/-- The blanks of ASCII come before all its letters and digits. -/
theorem toNat_of_isBlank {c : Char} (h : isBlank c = true) (ascii : c.toNat < 0x80) :
    c.toNat ≤ 0x20 := by
  obtain ⟨range, hr, from_start, to_end⟩ := inRanges_iff.1 h
  have ranges : ∀ range ∈ blankRanges, range.1 ≤ 0x20 ∧ range.2 ≤ 0x20 ∨ 0x80 ≤ range.1 := by
    decide
  rcases ranges range hr with low | high <;> omega

end Text

namespace Name

theorem continuesIdentifier_of_mem {name : Text} {c : Char} (h : isIdentifier name = true)
    (hc : c ∈ name) : continuesIdentifier c = true := by
  cases name with
  | nil => cases h
  | cons first rest =>
    obtain ⟨starts, continues⟩ := Bool.and_eq_true_iff.1 h
    rcases List.mem_cons.1 hc with rfl | hc
    · rw [continuesIdentifier, starts, Bool.true_or]
    · exact List.all_eq_true.1 continues c hc

theorem not_mem_of_isIdentifier {name : Text} {c : Char} (h : isIdentifier name = true)
    (hc : continuesIdentifier c = false) : c ∉ name := by
  intro mem
  rw [continuesIdentifier_of_mem h mem] at hc
  cases hc

theorem ne_nil_of_isIdentifier {name : Text} (h : isIdentifier name = true) : name ≠ [] := by
  rintro rfl
  cases h

/-- No blank continues an identifier. -/
theorem continuesIdentifier_of_isBlank {c : Char} (h : Text.isBlank c = true) :
    continuesIdentifier c = false := by
  have underscore : c ≠ '_' := by
    rintro rfl
    revert h
    decide
  have letter : Text.isAlphabetic c = false := by
    unfold Text.isAlphabetic
    split
    · rename_i ascii
      have low : ∀ n < 0x21, (Char.ofNat n).isAlpha = false := by decide
      rw [← Char.ofNat_toNat c]
      exact low _ (Nat.lt_succ_of_le (Text.toNat_of_isBlank h ascii))
    · exact Text.inRanges_of_disjoint (by decide +kernel) h
  have digit : Text.isNumeric c = false := by
    unfold Text.isNumeric
    split
    · rename_i ascii
      have low : ∀ n < 0x21, (Char.ofNat n).isDigit = false := by decide
      rw [← Char.ofNat_toNat c]
      exact low _ (Nat.lt_succ_of_le (Text.toNat_of_isBlank h ascii))
    · exact Text.inRanges_of_disjoint (by decide +kernel) h
  simp [continuesIdentifier, startsIdentifier, underscore, letter, digit]

theorem isBlank_of_continues {c : Char} (h : continuesIdentifier c = true) :
    Text.isBlank c = false := by
  refine Bool.eq_false_iff.2 fun blank => ?_
  rw [continuesIdentifier_of_isBlank blank] at h
  cases h

theorem ne_of_continues {c d : Char} (h : continuesIdentifier c = true)
    (hd : continuesIdentifier d = false) : c ≠ d := by
  rintro rfl
  rw [h] at hd
  cases hd

end Name

end ConstantDump
