import ConstantDump.Proofs.Line.Kinds
import Mathlib.Data.List.DropRight

/-!
The names that lines declare.

* `Solid`: something other than blanks is in a text, and no blank at its ends; `solid_iff` says so
  by trimming;
* `solid_of_constant?`, `solid_of_literal?`: constants and literals have solid names;
* `Nameless`: only blanks stand where a record or an enumeration has its name, and maybe a part
  of them is taken for it;
* `declares_iff_of_nameless`: such a line declares what is taken for the name, and nothing when
  there is none;
* `solid_or_nameless_of_declares`: every other line declares a solid name.
-/

namespace ConstantDump

namespace Line

/-! ## Solid names -/

/-- Something other than blanks is in the name, and it neither starts nor ends with a blank. -/
structure Solid (name : Text) : Prop where
  visible : ∃ c ∈ name, Text.isBlank c = false
  first : ∀ c, name.head? = some c → Text.isBlank c = false
  last : ∀ c, name.getLast? = some c → Text.isBlank c = false

theorem not_solid_nil : ¬ Solid [] := fun h => by
  obtain ⟨c, hc, -⟩ := h.visible
  cases hc

theorem not_solid_blank {c : Char} (h : Text.isBlank c = true) : ¬ Solid [c] := fun hs => by
  have solid := hs.first c rfl
  rw [h] at solid
  cases solid

theorem solid_iff {name : Text} : Solid name ↔ name ≠ [] ∧ Text.trim name = name := by
  constructor
  · intro h
    have some_name : name ≠ [] := fun e => not_solid_nil (e ▸ h)
    refine ⟨some_name, ?_⟩
    have hf := List.head?_eq_some_head some_name
    have hl := List.getLast?_eq_some_getLast some_name
    exact Text.trim_of_ends hf (h.first _ hf) hl (h.last _ hl)
  · rintro ⟨some_name, trimmed⟩
    obtain ⟨⟨first, hf, first_solid⟩, last, hl, last_solid⟩ :=
      Text.ends_of_trimmed trimmed some_name
    refine ⟨⟨first, List.mem_of_head? hf, first_solid⟩, fun c hc => ?_, fun c hc => ?_⟩
    · rw [hf] at hc
      exact Option.some.inj hc ▸ first_solid
    · rw [hl] at hc
      exact Option.some.inj hc ▸ last_solid

/-- What starts with no blank is solid without the blanks at its end. -/
theorem solid_trimEnd {c : Char} (h : Text.isBlank c = false) (t : Text) :
    Solid (Text.trimEnd (c :: t)) := by
  have trimmed : Text.trim (c :: t) = Text.trimEnd (c :: t) := by
    rw [Text.trim, Text.trimStart_of_head? rfl h]
  refine solid_iff.2 ⟨?_, ?_⟩
  · rw [Text.trimEnd_cons h]
    simp
  · rw [← trimmed, Text.trim_trim]

theorem head_trim_solid {line : Text} {c : Char} (h : (Text.trim line).head? = some c) :
    Text.isBlank c = false := by
  have some_line : Text.trim line ≠ [] := fun e => by simp [e] at h
  obtain ⟨⟨first, hf, solid⟩, -⟩ := Text.ends_of_trimmed (Text.trim_trim line) some_line
  rw [h] at hf
  exact Option.some.inj hf ▸ solid

/-- The start of a line is solid, apart from the blanks around it. -/
theorem solid_trimEnd_of_prefix {line start : Text} (hp : start <+: Text.trim line)
    (some_start : Text.trimEnd start ≠ []) : Solid (Text.trimEnd start) := by
  cases start with
  | nil => exact absurd rfl some_start
  | cons c rest =>
    obtain ⟨after, shape⟩ := hp
    have head : (Text.trim line).head? = some c := by
      rw [← shape]
      rfl
    exact solid_trimEnd (head_trim_solid head) rest

/-! ## Constants and literals -/

theorem prefix_of_separateFrom {before t : Text} {depth : Nat} {found : Text × Text}
    (h : separateFrom before depth t = some found) : found.1 <+: before.reverse ++ t := by
  induction t generalizing before depth with
  | nil => cases h
  | cons c t ih =>
    have longer {d : Nat} (h : separateFrom (c :: before) d t = some found) :
        found.1 <+: before.reverse ++ c :: t := by
      have := ih h
      rwa [List.reverse_cons, List.append_assoc] at this
    unfold separateFrom at h
    split at h
    · exact longer h
    · split at h
      · exact longer h
      · split at h
        · cases h
          exact List.prefix_append ..
        · exact longer h

theorem suffix_of_separateFrom {before t : Text} {depth : Nat} {found : Text × Text}
    (h : separateFrom before depth t = some found) : found.2 <:+ t := by
  induction t generalizing before depth with
  | nil => cases h
  | cons c t ih =>
    unfold separateFrom at h
    split at h
    · exact (ih h).trans (List.suffix_cons c t)
    · split at h
      · exact (ih h).trans (List.suffix_cons c t)
      · split at h
        · cases h
          exact List.suffix_cons c t
        · exact (ih h).trans (List.suffix_cons c t)

theorem constantName_eq_trimEnd (before : Text) :
    ∃ start, start <+: before ∧ constantName before = Text.trimEnd start := by
  have name_prefix : Text.trimEnd before <+: before := List.rdropWhile_prefix _ _
  unfold constantName
  cases hs : [':'].isSuffixOf? (Text.trimEnd before) with
  | none => exact ⟨before, List.prefix_rfl, by simp [hs]⟩
  | some shorter =>
    simp only [hs]
    split
    · exact ⟨before, List.prefix_rfl, rfl⟩
    · refine ⟨shorter, ?_, rfl⟩
      have shape := Text.isSuffixOf?_eq_some_iff.1 hs
      exact List.IsPrefix.trans ⟨[':'], shape.symm⟩ name_prefix

theorem solid_of_constant? {line name value : Text} (h : constant? line = some (name, value)) :
    Solid name := by
  unfold constant? at h
  simp only at h
  split at h
  · cases h
  · obtain ⟨⟨before, after⟩, hs, h⟩ := Option.bind_eq_some_iff.1 h
    simp only at h
    split at h
    · cases h
    · rename_i some_parts
      cases h
      obtain ⟨start, hp, name_eq⟩ := constantName_eq_trimEnd before
      rw [name_eq] at some_parts ⊢
      exact solid_trimEnd_of_prefix (hp.trans (prefix_of_separateFrom hs))
        fun e => some_parts (Or.inl e)

theorem solid_of_literal? {line name value : Text} (h : literal? line = some (name, value)) :
    Solid name := by
  obtain ⟨rest, -, h⟩ := Option.bind_eq_some_iff.1 h
  obtain ⟨⟨found, foundValue⟩, hc, h⟩ := Option.bind_eq_some_iff.1 h
  simp only at h
  split at h
  · cases h
    exact solid_of_constant? hc
  · cases h

/-! ## Lines without a name -/

/-- A line of a record or the opening line of an enumeration where only blanks stand in the place
of the name, and the blanks that are taken for the name if any are. -/
inductive Nameless : Text → Option Text → Prop
  | record (before fields after : Text) (hb : before.all Text.isBlank = true)
      (ha : after.all Text.isBlank = true) (brace : '{' ∉ fields) (sign : '=' ∉ fields) :
      Nameless (before ++ (('{' :: fields ++ ['}']) ++ after))
        (if before = [] then none else some [])
  | opening (before between after : Text) (hb : before.all Text.isBlank = true)
      (hm : between.all Text.isBlank = true) (ha : after.all Text.isBlank = true) :
      Nameless (before ++ (("enum".toList ++ between ++ ['{']) ++ after))
        ((between.tail.reverse.find? (· ≠ '\n')).map ([·]))

/-- The line declares something of this name. -/
inductive Declares (line : Text) : Text → Prop
  | constant {name value : Text} (h : constant? line = some (name, value)) : Declares line name
  | literal {name value : Text} (h : literal? line = some (name, value)) : Declares line name
  | record {name fields : Text} (h : record? line = some (name, fields)) : Declares line name
  | opening {name : Text} (h : enumOpening? line = some name) : Declares line name

theorem not_solid_of_nameless {line name : Text} (h : Nameless line (some name)) :
    ¬ Solid name := by
  generalize ht : some name = taken at h
  cases h with
  | record before fields after hb ha brace sign =>
    split at ht
    · cases ht
    · cases ht
      exact not_solid_nil
  | opening before between after hb hm ha =>
    obtain ⟨c, hc, he⟩ := Option.map_eq_some_iff.1 ht.symm
    rw [← he]
    have hmem := List.mem_of_mem_tail (List.mem_reverse.1 (List.mem_of_find?_eq_some hc))
    exact not_solid_blank (List.all_eq_true.1 hm c hmem)

theorem not_mem_of_nameless {line : Text} {taken : Option Text} (h : Nameless line taken) :
    '=' ∉ line := by
  have no_sign {t : Text} (ht : t.all Text.isBlank = true) : '=' ∉ t := fun hmem => by
    have blank := List.all_eq_true.1 ht _ hmem
    cases blank
  cases h with
  | record before fields after hb ha brace sign => simp [no_sign hb, no_sign ha, sign]
  | opening before between after hb hm ha => simp [no_sign hb, no_sign hm, no_sign ha]

/-! ### Records -/

theorem eq_of_splitAtBrace? {t name fields : Text} (h : splitAtBrace? t = some (name, fields)) :
    t = name ++ '{' :: fields := by
  induction t generalizing name with
  | nil => cases h
  | cons c t ih =>
    unfold splitAtBrace? at h
    split at h
    · rename_i brace
      cases h
      rw [brace]
      rfl
    · obtain ⟨⟨before, after⟩, found, same⟩ := Option.map_eq_some_iff.1 h
      cases same
      rw [ih found]
      rfl

theorem splitAtBrace?_eq_none_iff {t : Text} : splitAtBrace? t = none ↔ '{' ∉ t := by
  induction t with
  | nil => simp [splitAtBrace?]
  | cons c t ih =>
    unfold splitAtBrace?
    split
    · rename_i hc
      simp [hc]
    · rename_i hc
      simp [ih, Ne.symm hc]

theorem solid_or_nameless_of_record? {line name fields : Text}
    (h : record? line = some (name, fields)) : Solid name ∨ Nameless line (some name) := by
  have sign := not_mem_of_record? h
  unfold record? at h
  rw [if_neg sign] at h
  cases hb : beforeClosing? (Text.trimStart line) with
  | none => simp [hb] at h
  | some before =>
    have trimmed : Text.trim line = before ++ ['}'] := Text.isSuffixOf?_eq_some_iff.1 hb
    cases before with
    | nil => simp [hb] at h
    | cons c rest =>
      simp only [hb] at h
      cases hs : splitAtBrace? rest with
      | some parts =>
        simp only [hs] at h
        cases h
        have head : (Text.trim line).head? = some c := by
          rw [trimmed]
          rfl
        exact Or.inl (solid_trimEnd (head_trim_solid head) _)
      | none =>
        -- the first brace opens the fields, so that the name ends before it starts
        simp only [hs] at h
        split at h
        · rename_i hc
          obtain ⟨rfl, blank_first⟩ := hc
          cases h
          right
          obtain ⟨after, ha, shape⟩ := Text.exists_trim_append line
          rw [trimmed] at shape
          have no_sign : '=' ∉ fields := fun hmem => sign (by rw [shape]; simp [hmem])
          have blank : (line.takeWhile Text.isBlank).all Text.isBlank = true := List.all_takeWhile
          have record := Nameless.record _ _ _ blank ha (splitAtBrace?_eq_none_iff.1 hs) no_sign
          rwa [if_neg (Text.takeWhile_ne_nil_iff.2 blank_first), ← shape] at record
        · cases h

theorem trim_record {before fields after : Text} (hb : before.all Text.isBlank = true)
    (ha : after.all Text.isBlank = true) :
    Text.trim (before ++ (('{' :: fields ++ ['}']) ++ after)) = '{' :: fields ++ ['}'] :=
  Text.trim_spaced hb ha (Text.trim_of_ends rfl rfl List.getLast?_concat rfl)

/-- A record's line without a name has the empty name when a blank stands in front, and is none
otherwise. -/
theorem record?_nameless {before fields after : Text} (hb : before.all Text.isBlank = true)
    (ha : after.all Text.isBlank = true) (brace : '{' ∉ fields) (sign : '=' ∉ fields) :
    record? (before ++ (('{' :: fields ++ ['}']) ++ after)) =
      if before = [] then none else some ([], fields) := by
  have no_equals := not_mem_of_nameless (Nameless.record before fields after hb ha brace sign)
  have closing : beforeClosing? (Text.trimStart (before ++ (('{' :: fields ++ ['}']) ++ after))) =
      some ('{' :: fields) := Text.isSuffixOf?_eq_some_iff.2 (trim_record hb ha)
  have split_fields := splitAtBrace?_eq_none_iff.2 brace
  unfold record?
  rw [if_neg no_equals, closing]
  simp only [split_fields]
  cases before with
  | nil => rfl
  | cons b before =>
    have blank := List.all_eq_true.1 hb b (List.mem_cons_self ..)
    simp [blank]

/-! ### Enumerations -/

theorem blanks?_eq_some_iff {t blanks rest : Text} :
    blanks? t = some (blanks, rest) ↔
      blanks ≠ [] ∧ t.takeWhile Text.isBlank = blanks ∧ Text.trimStart t = rest := by
  unfold blanks?
  by_cases blank_first : t.head?.any Text.isBlank = true
  · rw [if_pos blank_first]
    have some_blanks := Text.takeWhile_ne_nil_iff.2 blank_first
    constructor
    · intro h
      cases h
      exact ⟨some_blanks, rfl, rfl⟩
    · rintro ⟨-, rfl, rfl⟩
      rfl
  · rw [if_neg blank_first]
    constructor
    · intro h
      cases h
    · rintro ⟨some_blanks, rfl, -⟩
      exact absurd (Text.takeWhile_ne_nil_iff.1 some_blanks) blank_first

theorem solid_or_nameless_of_enumOpening? {line name : Text} (h : enumOpening? line = some name) :
    Solid name ∨ Nameless line (some name) := by
  obtain ⟨rest, hp, h⟩ := Option.bind_eq_some_iff.1 h
  obtain ⟨⟨between, shown⟩, hb, h⟩ := Option.bind_eq_some_iff.1 h
  obtain ⟨before, hbrace, h⟩ := Option.bind_eq_some_iff.1 h
  obtain ⟨-, rfl, rfl⟩ := blanks?_eq_some_iff.1 hb
  obtain ⟨after, ha, shown_shape⟩ := Text.exists_trimEnd_append (Text.trimStart rest)
  rw [Text.isSuffixOf?_eq_some_iff.1 hbrace] at shown_shape
  cases before with
  | nil =>
    -- nothing but the brace follows the blanks after the keyword
    right
    have blank (t : Text) : (t.takeWhile Text.isBlank).all Text.isBlank = true :=
      List.all_takeWhile
    have line_shape : line = line.takeWhile Text.isBlank ++ (("enum".toList ++
        rest.takeWhile Text.isBlank ++ ['{']) ++ after) := by
      calc line = line.takeWhile Text.isBlank ++ Text.trimStart line :=
            List.takeWhile_append_dropWhile.symm
        _ = line.takeWhile Text.isBlank ++ ("enum".toList ++ rest) := by
            rw [Text.isPrefixOf?_eq_some_iff.1 hp]
        _ = line.takeWhile Text.isBlank ++ ("enum".toList ++
              (rest.takeWhile Text.isBlank ++ Text.trimStart rest)) := by
            rw [Text.trimStart, List.takeWhile_append_dropWhile]
        _ = _ := by
            rw [shown_shape]
            simp only [List.nil_append, List.append_assoc]
    have opening := Nameless.opening _ _ _ (blank line) (blank rest) ha
    rw [← line_shape] at opening
    rwa [← h]
  | cons c u =>
    left
    have solid : Text.isBlank c = false := Text.isBlank_head_trimStart shown_shape
    have some_name : Text.trimEnd (c :: u) ≠ [] := by
      rw [Text.trimEnd_cons solid]
      simp
    simp only [if_neg some_name] at h
    split at h
    · cases h
    · cases h
      exact solid_trimEnd solid u

theorem trim_opening {before between after : Text} (hb : before.all Text.isBlank = true)
    (ha : after.all Text.isBlank = true) :
    Text.trim (before ++ (("enum".toList ++ between ++ ['{']) ++ after)) =
      "enum".toList ++ between ++ ['{'] :=
  Text.trim_spaced hb ha (Text.trim_of_ends rfl rfl List.getLast?_concat rfl)

/-- An opening line without a name takes the last blank after the first one that is no line feed
for the name, and opens nothing when there is none. -/
theorem enumOpening?_nameless {before between after : Text} (hb : before.all Text.isBlank = true)
    (hm : between.all Text.isBlank = true) (ha : after.all Text.isBlank = true) :
    enumOpening? (before ++ (("enum".toList ++ between ++ ['{']) ++ after)) =
      (between.tail.reverse.find? (· ≠ '\n')).map ([·]) := by
  have start : "enum".toList.isPrefixOf? (Text.trimStart (before ++
      (("enum".toList ++ between ++ ['{']) ++ after))) = some (between ++ '{' :: after) := by
    refine Text.isPrefixOf?_eq_some_iff.2 ?_
    rw [Text.trimStart_blanks_append hb, Text.trimStart_of_head? rfl rfl]
    simp
  have brace : beforeBrace? ('{' :: after) = some [] := by
    refine Text.isSuffixOf?_eq_some_iff.2 ?_
    rw [← List.singleton_append, Text.trimEnd_append_blanks ha]
    rfl
  unfold enumOpening?
  rw [start]
  cases between with
  | nil => rfl
  | cons b rest =>
    have blank : blanks? (b :: rest ++ '{' :: after) = some (b :: rest, '{' :: after) := by
      refine blanks?_eq_some_iff.2 ⟨List.cons_ne_nil b rest, ?_, ?_⟩
      · rw [List.takeWhile_append_of_pos (List.all_eq_true.1 hm)]
        simp [show Text.isBlank '{' = false from rfl]
      · rw [Text.trimStart_blanks_append hm, Text.trimStart_of_head? rfl rfl]
    simp only [Option.bind_eq_bind, Option.bind_some, blank, brace]
    rfl

/-! ## Every line -/

theorem solid_or_nameless_of_declares {line name : Text} (h : Declares line name) :
    Solid name ∨ Nameless line (some name) := by
  cases h with
  | constant h => exact Or.inl (solid_of_constant? h)
  | literal h => exact Or.inl (solid_of_literal? h)
  | record h => exact solid_or_nameless_of_record? h
  | opening h => exact solid_or_nameless_of_enumOpening? h

/-- A line without a name declares what is taken for it, and nothing else. -/
theorem declares_iff_of_nameless {line name : Text} {taken : Option Text}
    (h : Nameless line taken) : Declares line name ↔ taken = some name := by
  have sign := not_mem_of_nameless h
  cases h with
  | record before fields after hb ha brace no_sign =>
    -- the line ends in a closing brace, so that it opens no enumeration
    have equation := record?_nameless hb ha brace no_sign
    constructor
    · intro hd
      cases hd with
      | constant h => exact absurd (mem_of_constant? h) sign
      | literal h => exact absurd (mem_of_literal? h) sign
      | record h =>
        rw [equation] at h
        split at h
        · cases h
        · rename_i some_before
          cases h
          rw [if_neg some_before]
      | opening h =>
        have last := getLast?_of_enumOpening? h
        rw [trim_record hb ha, List.getLast?_concat] at last
        cases last
    · intro ht
      split at ht
      · cases ht
      · rename_i some_before
        cases ht
        exact Declares.record (by rw [equation, if_neg some_before])
  | opening before between after hb hm ha =>
    have equation := enumOpening?_nameless hb hm ha
    constructor
    · intro hd
      cases hd with
      | constant h => exact absurd (mem_of_constant? h) sign
      | literal h => exact absurd (mem_of_literal? h) sign
      | record h =>
        have last := getLast?_of_record? h
        rw [trim_opening hb ha, List.getLast?_concat] at last
        cases last
      | opening h => rw [← equation, h]
    · intro ht
      exact Declares.opening (equation.trans ht)

/-- Every line that declares something gives it a solid name, unless only blanks stand in the
place of the name. Such a line declares what is taken for the name: nothing, the empty text where
a blank stands before a record's brace, or one of the blanks after the keyword. -/
theorem solid_iff_of_declares (line : Text) :
    (∀ name, Declares line name → (Solid name ↔ ¬ ∃ taken, Nameless line taken)) ∧
      ∀ taken, Nameless line taken → ∀ name, Declares line name ↔ taken = some name := by
  refine ⟨fun name declared => ⟨?_, fun named => ?_⟩, fun taken nameless name =>
    declares_iff_of_nameless nameless⟩
  · rintro solid ⟨taken, nameless⟩
    rw [(declares_iff_of_nameless nameless).1 declared] at nameless
    exact not_solid_of_nameless nameless solid
  · rcases solid_or_nameless_of_declares declared with solid | nameless
    · exact solid
    · exact absurd ⟨_, nameless⟩ named

theorem solid_iff_of_declares_color :
    (¬ ∃ taken, Nameless "enum Color \x7b".toList taken) ∧
      ∀ name, ¬ Declares "\x7b\x7d".toList name := by
  have color : Solid "Color".toList := solid_iff.2 (by decide)
  have declared : Declares "enum Color \x7b".toList "Color".toList := .opening (by decide)
  have braces : Nameless "\x7b\x7d".toList none :=
    .record [] [] [] rfl rfl (by simp) (by simp)
  refine ⟨((solid_iff_of_declares _).1 _ declared).1 color, fun name h => ?_⟩
  cases ((solid_iff_of_declares _).2 none braces name).1 h

/-- A blank before an empty record makes its name empty, and a second one after the keyword is the
name of an enumeration. -/
theorem exists_declares_blank :
    (Declares " \x7b\x7d".toList [] ∧ ¬ Solid []) ∧
      Declares "enum  \x7b".toList [' '] ∧ ¬ Solid [' '] :=
  ⟨⟨.record (show record? " \x7b\x7d".toList = some ([], []) by decide), not_solid_nil⟩,
    .opening (by decide), not_solid_blank rfl⟩

end Line

end ConstantDump
