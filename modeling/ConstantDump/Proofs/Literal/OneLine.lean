import ConstantDump.Proofs.Line.Written
import ConstantDump.Proofs.Literal.Verbatim
import ConstantDump.Proofs.Name.Numbered
import ConstantDump.Proofs.Text.Quoted
import Mathlib.Data.Option.Basic

/-!
Values of one line. Line feeds between quotes are shown as escapes, so a value is shown in several
lines only when a text or a name in it has several lines.

* `oneLine_display_of_isAtomic`: values without parts are shown in one line;
* `oneLine_decode`: so is the value of a literal of one line, if the record types have names and
  fields of one line.
-/

namespace ConstantDump

namespace Text

def OneLine (t : Text) : Prop := '\n' ∉ t

instance (t : Text) : Decidable (OneLine t) := inferInstanceAs (Decidable (¬ _ ∈ _))

variable {t u : Text}

theorem OneLine.of_subset (h : OneLine t) (sub : u ⊆ t) : OneLine u := fun mem => h (sub mem)

theorem oneLine_append : OneLine (t ++ u) ↔ OneLine t ∧ OneLine u := by
  simp [OneLine, not_or]

theorem oneLine_cons {c : Char} : OneLine (c :: t) ↔ c ≠ '\n' ∧ OneLine t := by
  simp [OneLine, not_or, eq_comm]

theorem oneLine_join {separator : Text} (hs : OneLine separator) {pieces : List Text}
    (h : ∀ piece ∈ pieces, OneLine piece) : OneLine (join separator pieces) := by
  fun_induction join separator pieces with
  | case1 => exact List.not_mem_nil
  | case2 piece => exact h piece (List.mem_singleton.2 rfl)
  | case3 piece next rest ih =>
    rw [oneLine_append, oneLine_append]
    exact ⟨⟨h piece (List.mem_cons_self ..), hs⟩, ih fun other mem => h other (.tail _ mem)⟩

theorem subset_join (separator : Text) {pieces : List Text} {piece : Text}
    (mem : piece ∈ pieces) : piece ⊆ join separator pieces := by
  fun_induction join separator pieces with
  | case1 => cases mem
  | case2 only => rw [List.mem_singleton.1 mem]; exact List.Subset.refl _
  | case3 first next rest ih =>
    rcases List.mem_cons.1 mem with rfl | later
    · rw [List.append_assoc]
      exact List.subset_append_left ..
    · exact List.Subset.trans (ih later) (List.subset_append_right ..)

theorem oneLine_ofNat (n : Nat) : OneLine (ofNat n) := not_mem_ofNat (by decide) n

theorem oneLine_ofInt (n : Int) : OneLine (ofInt n) := fun mem =>
  absurd (isBlank_of_mem_ofInt mem) (by decide)

theorem oneLine_of_isIdentifier (h : Name.isIdentifier t = true) : OneLine t :=
  Name.not_mem_of_isIdentifier h (by decide)

/-! ## Between quotes -/

theorem oneLine_of_digits {base : Nat} (h : t.all (isDigitOf base) = true) : OneLine t := by
  intro mem
  have digit : isDigitOf base '\n' = true := List.all_eq_true.1 h _ mem
  simp [isDigitOf, digitValue?] at digit

/-- Line feeds are among the characters that have a short escape. -/
theorem oneLine_quoteChar {quote : Char} (hq : quote ≠ '\n') (c : Char) :
    OneLine (quoteChar quote c) := by
  have shows := shows_quoteChar quote c
  generalize quoteChar quote c = shown at shows
  cases shows with
  | null => decide
  | short letter c h =>
    simp only [List.mem_cons, Prod.mk.injEq, List.not_mem_nil, or_false] at h
    rcases h with ⟨rfl, -⟩ | ⟨rfl, -⟩ | ⟨rfl, -⟩ <;> decide
  | sheltered c h =>
    have other : c ≠ '\n' := by
      rintro rfl
      exact h.elim (by decide) fun same => hq same.symm
    simpa [oneLine_cons] using ⟨other, by simp [OneLine]⟩
  | plain c h =>
    have other : c ≠ '\n' := by
      rintro rfl
      simp [HasShortEscape] at h
    simpa [oneLine_cons] using ⟨other, by simp [OneLine]⟩
  | codePoint c h invisible =>
    have digits := oneLine_of_digits (denotes_toDigits c.toNat).valid
    rw [codePointEscape, oneLine_append, oneLine_append]
    exact ⟨⟨by decide, digits⟩, by decide⟩

theorem oneLine_quotedBy {quote : Char} (hq : quote ≠ '\n') (t : Text) :
    OneLine (quotedBy quote t) := by
  have contents : OneLine (t.flatMap (quoteChar quote)) := fun mem => by
    obtain ⟨c, -, shown⟩ := List.mem_flatMap.1 mem
    exact oneLine_quoteChar hq c shown
  rw [quotedBy, List.cons_append, oneLine_cons, oneLine_append]
  exact ⟨hq, contents, by simpa [OneLine] using hq.symm⟩

end Text

open Text

/-! ## Numbers -/

namespace Binary64

theorem oneLine_significant (d : Decimal) : OneLine d.significant := by
  refine (oneLine_ofNat d.digits).of_subset fun c mem => ?_
  have kept := (List.dropWhile_sublist _).subset (List.mem_reverse.1 mem)
  exact List.mem_reverse.1 kept

theorem oneLine_replicate (n : Nat) : OneLine (List.replicate n '0') := fun mem =>
  absurd (List.eq_of_mem_replicate mem) (by decide)

theorem oneLine_positional (d : Decimal) : OneLine d.positional := by
  have whole := (oneLine_significant d).of_subset (List.take_subset d.point.toNat _)
  have fraction : OneLine
      (List.replicate (-d.point).toNat '0' ++ d.significant.drop d.point.toNat) :=
    oneLine_append.2 ⟨oneLine_replicate _, (oneLine_significant d).of_subset (List.drop_subset _ _)⟩
  unfold Decimal.positional
  rw [oneLine_append, oneLine_cons]
  refine ⟨?_, by decide, ?_⟩
  · split
    · decide
    · exact oneLine_append.2 ⟨whole, oneLine_replicate _⟩
  · split
    · decide
    · exact fraction

theorem oneLine_exponential (d : Decimal) : OneLine d.exponential := by
  have first := (oneLine_significant d).of_subset (List.take_subset 1 _)
  have others := (oneLine_significant d).of_subset (List.drop_subset 1 _)
  unfold Decimal.exponential
  rw [oneLine_append, oneLine_append, oneLine_cons]
  refine ⟨⟨first, ?_⟩, by decide, oneLine_ofInt _⟩
  split
  · exact List.not_mem_nil
  · exact oneLine_cons.2 ⟨by decide, others⟩

theorem oneLine_toText {style : Style} (infinity : OneLine style.infinity)
    (notANumber : OneLine style.notANumber) (x : Binary64) : OneLine (x.toText style) := by
  unfold toText
  split
  · exact notANumber
  · rw [oneLine_append]
    refine ⟨by split <;> decide, ?_⟩
    split
    · exact infinity
    · split
      · decide
      · dsimp only
        split
        · exact oneLine_positional _
        · exact oneLine_exponential _

end Binary64

/-! ## Values -/

namespace Value

/-- Whether a value is shown without the texts of others, and not as it was written. -/
def isAtomic : Value → Bool
  | .list _ | .tuple _ | .struct _ _ | .text _ => false
  | _ => true

theorem oneLine_displayByte (byte : UInt8) : OneLine (displayByte byte) := by
  have digit : ∀ n < 16, Nat.digitChar n ≠ '\n' := by decide
  unfold displayByte
  dsimp only
  split_ifs with tab carriage feed sheltered visible
  · decide
  · decide
  · decide
  · rcases sheltered with same | same | same <;> rw [same] <;> decide
  · exact oneLine_cons.2 ⟨feed, List.not_mem_nil⟩
  · have high : byte.toNat / 16 < 16 := Nat.div_lt_of_lt_mul byte.toNat_lt
    have low : byte.toNat % 16 < 16 := Nat.mod_lt _ (by decide)
    have digits : OneLine (hexByte byte) :=
      oneLine_cons.2 ⟨digit _ high, oneLine_cons.2 ⟨digit _ low, List.not_mem_nil⟩⟩
    exact oneLine_append.2 ⟨by decide, digits⟩

theorem oneLine_display_of_isAtomic {v : Value} (h : v.isAtomic = true) : OneLine v.display := by
  cases v with
  | int n => exact oneLine_ofInt n
  | float x => exact Binary64.oneLine_toText (by decide) (by decide) x
  | bool b => cases b <;> decide
  | char c => exact oneLine_quotedBy (by decide) [c]
  | str t => exact oneLine_quotedBy (by decide) t
  | bytes units =>
    have contents : OneLine (units.flatMap displayByte) := fun mem => by
      obtain ⟨byte, -, shown⟩ := List.mem_flatMap.1 mem
      exact oneLine_displayByte byte shown
    rw [display, displayBytes, oneLine_append, oneLine_append]
    exact ⟨⟨by decide, contents⟩, by decide⟩
  | list _ | tuple _ | struct _ _ | text _ => cases h

variable {items : List Value}

theorem oneLine_displayAll (h : ∀ item ∈ items, OneLine item.display) :
    OneLine (Text.join comma (displayAll items)) := by
  refine oneLine_join (by decide) fun piece mem => ?_
  rw [displayAll_eq_map] at mem
  obtain ⟨item, inside, rfl⟩ := List.mem_map.1 mem
  exact h item inside

theorem oneLine_list (h : ∀ item ∈ items, OneLine item.display) :
    OneLine (Value.list items).display := by
  rw [display, List.cons_append, oneLine_cons, oneLine_append]
  exact ⟨by decide, oneLine_displayAll h, by decide⟩

theorem oneLine_untyped (h : ∀ item ∈ items, OneLine item.display) :
    OneLine (untyped items).display := by
  unfold untyped
  split
  · exact h _ (List.mem_singleton.2 rfl)
  · rw [display, List.cons_append, List.cons_append, oneLine_cons, oneLine_append, oneLine_append]
    exact ⟨by decide, ⟨oneLine_displayAll h, by split <;> decide⟩, by decide⟩

theorem oneLine_struct {layout : Layout} (name : OneLine layout.typeName)
    (fields : ∀ field ∈ layout.fields, OneLine field) (h : ∀ item ∈ items, OneLine item.display) :
    OneLine (Value.struct layout items).display := by
  have pieces : ∀ piece ∈ displayFields layout.fields items, OneLine piece := by
    generalize layout.fields = names at fields
    induction names generalizing items with
    | nil => simp [displayFields]
    | cons field names ih =>
      cases items with
      | nil => simp [displayFields]
      | cons item items =>
        rw [displayFields, List.forall_mem_cons, oneLine_append, oneLine_cons]
        exact ⟨⟨fields field (by simp), by decide, h item (by simp)⟩,
          ih (fun other mem => h other (.tail _ mem)) fun other mem => fields other (.tail _ mem)⟩
  rw [display, oneLine_append, oneLine_append, oneLine_cons]
  exact ⟨⟨name, by decide, oneLine_join (by decide) pieces⟩, by decide⟩

end Value

theorem CharacterType.isAtomic_of_call {t : CharacterType} {arguments : List Value} {v : Value}
    (h : t.call arguments = .ok v) : v.isAtomic = true := by
  cases t with
  | unit encoding =>
    obtain ⟨n, -, built⟩ := bind_eq_ok_iff.1 h
    unfold unitValue at built
    split at built
    · cases built
    · split at built <;> cases built <;> rfl
  | wide =>
    obtain ⟨n, -, built⟩ := bind_eq_ok_iff.1 h
    unfold wideValue at built
    split at built
    · cases built
      rfl
    · split at built <;> cases built
      rfl
  | string _ | wideString =>
    obtain ⟨joined, -, built⟩ := bind_eq_ok_iff.1 h
    cases built
    rfl

theorem Bracket.subset_of_mem_split {separator : Char} {t : Text} {ps : List Text}
    (h : split separator t = some ps) {p : Text} (mem : p ∈ ps) : p ⊆ t := by
  unfold split at h
  split at h
  · cases h
    cases mem
  · obtain ⟨qs, pieces, rfl⟩ := Option.map_eq_some_iff.1 h
    obtain ⟨q, inside, rfl⟩ := List.mem_map.1 mem
    have joined : Text.join [separator] qs = t := join_piecesFrom pieces
    rw [← joined]
    exact List.Subset.trans (fun c kept => mem_of_mem_trim kept) (subset_join _ inside)

def Types.OneLine (types : Types) : Prop :=
  ∀ name r, types name = some (.record r) →
    r.layout.typeName.OneLine ∧ ∀ field ∈ r.fields, field.OneLine

namespace Literal

open Value

variable {types : Types}

theorem isAtomic_of_scalar? {raw : Text} {v : Value} (h : scalar? raw = some v) :
    v.isAtomic = true := by
  have quoted {v : Value} (h : quoted? raw = some v) : v.isAtomic = true := by
    unfold quoted? at h
    split at h
    · cases h
    · split at h
      · dsimp only at h
        split at h <;> cases h <;> rfl
      · cases h
  simp only [scalar?, Option.orElse_eq_some, Option.map_eq_some_iff] at h
  rcases h with ⟨n, -, rfl⟩ | ⟨-, ⟨x, -, rfl⟩ | ⟨-, quotation | ⟨-, b, -, rfl⟩⟩⟩
  · rfl
  · rfl
  · exact quoted quotation
  · rfl

theorem exists_of_typeOf? {name : Text} {type : Constructor}
    (h : typeOf? types name = some type) : ∃ other, types other = some type := by
  rcases (Option.orElse_eq_some _ _ _).1 h with whole | ⟨-, plain⟩
  · exact ⟨name, whole⟩
  · dsimp only at plain
    split at plain
    · cases plain
    · exact ⟨_, plain⟩

theorem oneLine_construct (named : types.OneLine) {name : Text} {arguments : List Value}
    (h : ∀ argument ∈ arguments, argument.display.OneLine) :
    (construct types name arguments).display.OneLine := by
  unfold construct
  split
  · exact oneLine_untyped h
  · rename_i type found
    split
    · rename_i value built
      cases type with
      | character t =>
        simp only [Constructor.call] at built
        cases inner : t.call arguments with
        | error e => simp [inner, Except.mapError] at built
        | ok v =>
          simp only [inner, Except.mapError, Except.ok.injEq] at built
          exact oneLine_display_of_isAtomic (CharacterType.isAtomic_of_call (built ▸ inner))
      | record r =>
        obtain ⟨other, there⟩ := exists_of_typeOf? found
        obtain ⟨typeName, fields⟩ := named other r there
        simp only [Constructor.call, Record.construct] at built
        split at built <;> cases built
        exact oneLine_struct typeName fields h
    · exact oneLine_untyped h

/-- The parts of a literal are made up of its characters. -/
theorem subset_of_mem_parts {raw part : Text} (h : part ∈ (Form.ofText raw).parts) :
    part ⊆ raw := by
  unfold Form.ofText at h
  cases scalar : scalar? raw with
  | some v => simp [scalar, Form.parts] at h
  | none =>
    cases array : elements? raw with
    | some elements =>
      obtain ⟨inner, inside, split⟩ := Option.bind_eq_some_iff.1 array
      obtain ⟨rest, opens, closes⟩ := Option.bind_eq_some_iff.1 inside
      have mem : part ∈ elements := by simpa [scalar, array, Form.parts] using h
      rw [Text.isPrefixOf?_eq_some_iff.1 opens, Text.isSuffixOf?_eq_some_iff.1 closes]
      exact List.Subset.trans (Bracket.subset_of_mem_split split mem) (by simp)
    | none =>
      cases call : callForm? raw with
      | none => simp [scalar, array, call, Form.parts] at h
      | some form =>
        obtain ⟨⟨typeName, parameters⟩, cut, built⟩ := Option.bind_eq_some_iff.1 call
        obtain ⟨arguments, split, made⟩ := Option.bind_eq_some_iff.1 built
        cases made
        have mem : part ∈ arguments := by simpa [scalar, array, call, Form.parts] using h
        rw [(call?_eq_some_iff.1 cut).1]
        exact List.Subset.trans (Bracket.subset_of_mem_split split mem) fun c inside => by
          simp [inside]

/-- The value of a literal of one line is shown in one line. -/
theorem oneLine_decode (named : types.OneLine) {raw : Text} (h : raw.OneLine) :
    (decode types raw).display.OneLine := by
  have parts (texts : List Text) (inside : ∀ part ∈ texts, part ∈ (Form.ofText raw).parts) :
      ∀ v ∈ texts.map (decode types), v.display.OneLine := by
    intro v mem
    obtain ⟨part, there, rfl⟩ := List.mem_map.1 mem
    have shorter := length_part_lt (inside part there)
    exact oneLine_decode named (h.of_subset (subset_of_mem_parts (inside part there)))
  rw [decode_eq]
  cases form : Form.ofText raw with
  | scalar value => exact oneLine_display_of_isAtomic (isAtomic_of_scalar? (scalar?_of_ofText form))
  | array elements => exact oneLine_list (parts elements (by simp [form, Form.parts]))
  | call typeName arguments =>
    exact oneLine_construct named (parts arguments (by simp [form, Form.parts]))
  | verbatim => exact h
termination_by raw.length

end Literal

end ConstantDump
