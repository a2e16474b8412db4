import ConstantDump.Line.Enumeration
import ConstantDump.Line.Literal
import ConstantDump.Line.Record
import ConstantDump.Proofs.Text.Trim

/-!
Which kinds of lines exclude one another. A record's line has no `=`, the others but the
opening of an enumeration have one; a literal's line starts with `#`, which no other does;
an opening line ends in `{` and a record's line in `}`; a blank line is of no kind.
-/

namespace ConstantDump

namespace Line

/-! ## What a line of a kind has in it -/

theorem mem_of_separateFrom {before t : Text} {depth : Nat} {found : Text × Text}
    (h : separateFrom before depth t = some found) : '=' ∈ t := by
  induction t generalizing before depth with
  | nil => cases h
  | cons c t ih =>
    unfold separateFrom at h
    split at h
    · exact List.mem_cons_of_mem _ (ih h)
    · split at h
      · exact List.mem_cons_of_mem _ (ih h)
      · split at h
        · rename_i hc
          rw [hc.1]
          exact List.mem_cons_self ..
        · exact List.mem_cons_of_mem _ (ih h)

theorem mem_of_constant? {line : Text} {found : Text × Text}
    (h : constant? line = some found) : '=' ∈ line := by
  unfold constant? at h
  simp only at h
  split at h
  · cases h
  · obtain ⟨⟨before, after⟩, hs, -⟩ := Option.bind_eq_some_iff.1 h
    exact Text.mem_of_mem_trim (mem_of_separateFrom hs)

theorem head?_ne_of_constant? {line : Text} {found : Text × Text}
    (h : constant? line = some found) : (Text.trim line).head? ≠ some '#' := by
  intro hhead
  unfold constant? at h
  simp [hhead] at h

theorem not_mem_of_record? {line : Text} {found : Text × Text}
    (h : record? line = some found) : '=' ∉ line := by
  intro hmem
  unfold record? at h
  rw [if_pos hmem] at h
  cases h

theorem getLast?_of_record? {line : Text} {found : Text × Text}
    (h : record? line = some found) : (Text.trim line).getLast? = some '}' := by
  unfold record? at h
  rw [if_neg (not_mem_of_record? h)] at h
  cases hb : beforeClosing? (Text.trimStart line) with
  | none => simp [hb] at h
  | some before =>
    have := Text.isSuffixOf?_eq_some_iff.1 hb
    rw [Text.trim, this]
    exact List.getLast?_concat ..

theorem trimStart_of_literal? {line : Text} {found : Text × Text}
    (h : literal? line = some found) : ∃ rest, Text.trimStart line = '#' :: rest := by
  obtain ⟨rest, hd, -⟩ := Option.bind_eq_some_iff.1 h
  obtain ⟨after, hp, -⟩ := Option.bind_eq_some_iff.1 hd
  exact ⟨after, Text.isPrefixOf?_eq_some_iff.1 hp⟩

theorem suffix_of_blanks? {t blanks rest : Text} (h : blanks? t = some (blanks, rest)) :
    rest <:+ t := by
  unfold blanks? at h
  split at h
  · cases h
    exact List.dropWhile_suffix _
  · cases h

theorem mem_of_literal? {line : Text} {found : Text × Text}
    (h : literal? line = some found) : '=' ∈ line := by
  obtain ⟨rest, hd, h⟩ := Option.bind_eq_some_iff.1 h
  obtain ⟨⟨name, value⟩, hc, -⟩ := Option.bind_eq_some_iff.1 h
  obtain ⟨after, hp, hd⟩ := Option.bind_eq_some_iff.1 hd
  obtain ⟨words, hw, hd⟩ := Option.bind_eq_some_iff.1 hd
  obtain ⟨⟨blanks, last⟩, hb, hd⟩ := Option.bind_eq_some_iff.1 hd
  have hrest : last = rest := by
    simp only at hd
    split at hd
    · cases hd
    · exact Option.some.inj hd
  have after_words : '=' ∈ words := (suffix_of_blanks? hb).mem (hrest ▸ mem_of_constant? hc)
  have after_sign : '=' ∈ after := by
    refine (List.dropWhile_suffix Text.isBlank).mem ?_
    rw [show after.dropWhile Text.isBlank = _ from Text.isPrefixOf?_eq_some_iff.1 hw]
    exact List.mem_append_right _ after_words
  refine (List.dropWhile_suffix Text.isBlank).mem ?_
  rw [show line.dropWhile Text.isBlank = _ from Text.isPrefixOf?_eq_some_iff.1 hp]
  exact List.mem_append_right _ after_sign

theorem trimStart_of_enumOpening? {line name : Text} (h : enumOpening? line = some name) :
    ∃ rest, Text.trimStart line = 'e' :: rest := by
  obtain ⟨rest, hp, -⟩ := Option.bind_eq_some_iff.1 h
  exact ⟨_, Text.isPrefixOf?_eq_some_iff.1 hp⟩

theorem getLast?_of_enumOpening? {line name : Text} (h : enumOpening? line = some name) :
    (Text.trim line).getLast? = some '{' := by
  obtain ⟨rest, hp, h⟩ := Option.bind_eq_some_iff.1 h
  obtain ⟨⟨blanks, after⟩, hb, h⟩ := Option.bind_eq_some_iff.1 h
  obtain ⟨before, hbrace, -⟩ := Option.bind_eq_some_iff.1 h
  have hlast : (Text.trimEnd after).getLast? = some '{' := by
    rw [Text.isSuffixOf?_eq_some_iff.1 hbrace]
    exact List.getLast?_concat ..
  refine Text.getLast?_trimEnd_of_suffix ?_ hlast
  rw [Text.isPrefixOf?_eq_some_iff.1 hp]
  exact (suffix_of_blanks? hb).trans (List.suffix_append ..)

/-! ## Exclusion -/

variable {line name : Text} {found : Text × Text}

theorem constant?_of_record? (h : record? line = some found) : constant? line = none := by
  apply Option.eq_none_iff_forall_not_mem.2
  intro other hc
  have hmem := mem_of_constant? hc
  exact not_mem_of_record? h hmem

theorem enumOpening?_of_record? (h : record? line = some found) : enumOpening? line = none := by
  apply Option.eq_none_iff_forall_not_mem.2
  intro name ho
  have hlast := getLast?_of_enumOpening? ho
  rw [getLast?_of_record? h] at hlast
  cases hlast

theorem record?_of_constant? (h : constant? line = some found) : record? line = none := by
  apply Option.eq_none_iff_forall_not_mem.2
  intro other hr
  have hmem := mem_of_constant? h
  exact not_mem_of_record? hr hmem

theorem record?_of_literal? (h : literal? line = some found) : record? line = none := by
  apply Option.eq_none_iff_forall_not_mem.2
  intro other hr
  have hmem := mem_of_literal? h
  exact not_mem_of_record? hr hmem

theorem record?_of_enumOpening? (h : enumOpening? line = some name) : record? line = none := by
  apply Option.eq_none_iff_forall_not_mem.2
  intro other hr
  rw [enumOpening?_of_record? hr] at h
  cases h

theorem constant?_of_literal? (h : literal? line = some found) : constant? line = none := by
  obtain ⟨rest, hr⟩ := trimStart_of_literal? h
  apply Option.eq_none_iff_forall_not_mem.2
  intro other hc
  have hhead := head?_ne_of_constant? hc
  exact hhead (Text.head?_trim hr)

theorem literal?_of_constant? (h : constant? line = some found) : literal? line = none := by
  apply Option.eq_none_iff_forall_not_mem.2
  intro other hl
  rw [constant?_of_literal? hl] at h
  cases h

theorem enumOpening?_of_literal? (h : literal? line = some found) :
    enumOpening? line = none := by
  obtain ⟨rest, hr⟩ := trimStart_of_literal? h
  apply Option.eq_none_iff_forall_not_mem.2
  intro name ho
  obtain ⟨rest', hr'⟩ := trimStart_of_enumOpening? ho
  rw [hr] at hr'
  cases hr'

theorem literal?_of_enumOpening? (h : enumOpening? line = some name) :
    literal? line = none := by
  apply Option.eq_none_iff_forall_not_mem.2
  intro other hl
  rw [enumOpening?_of_literal? hl] at h
  cases h

theorem closesEnum_of_enumOpening? (h : enumOpening? line = some name) :
    closesEnum line = false := by
  obtain ⟨rest, hr⟩ := trimStart_of_enumOpening? h
  simp [closesEnum, hr]

/-! ## Blank lines -/

theorem constant?_of_isAllBlank (h : Text.isAllBlank line = true) : constant? line = none := by
  simp [constant?, Text.trim_of_isAllBlank h, separateFrom]

theorem record?_of_isAllBlank (h : Text.isAllBlank line = true) : record? line = none := by
  apply Option.eq_none_iff_forall_not_mem.2
  intro other hr
  have hlast := getLast?_of_record? hr
  rw [Text.trim_of_isAllBlank h] at hlast
  cases hlast

theorem literal?_of_isAllBlank (h : Text.isAllBlank line = true) : literal? line = none := by
  apply Option.eq_none_iff_forall_not_mem.2
  intro other hl
  obtain ⟨rest, hr⟩ := trimStart_of_literal? hl
  rw [Text.trimStart_of_isAllBlank h] at hr
  cases hr

theorem enumOpening?_of_isAllBlank (h : Text.isAllBlank line = true) :
    enumOpening? line = none := by
  apply Option.eq_none_iff_forall_not_mem.2
  intro name ho
  obtain ⟨rest, hr⟩ := trimStart_of_enumOpening? ho
  rw [Text.trimStart_of_isAllBlank h] at hr
  cases hr

theorem closesEnum_of_isAllBlank (h : Text.isAllBlank line = true) : closesEnum line = false := by
  rw [closesEnum, Text.trimStart_of_isAllBlank h]
  rfl

end Line

end ConstantDump
