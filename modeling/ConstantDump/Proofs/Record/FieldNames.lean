import ConstantDump.Proofs.Name.Identifier
import ConstantDump.Proofs.Record.FreshName
import ConstantDump.Record.Basic

/-!
The field names of records, and the values behind them.

* `isSafe_of_mem_safeNamesFrom`, `nodup_safeNamesFrom`: the names are safe, and no two are alike;
* `Layout.indexOf?_eq_some_iff`: among names that differ, a field is found at its place;
* `construct_field?`: a record takes one argument a field, and gives each of them back under its
  field name.
-/

namespace ConstantDump

namespace Name

theorem continuesIdentifier_of_isDigit {c : Char} (h : c.isDigit = true) :
    continuesIdentifier c = true := by
  have ascii : c.toNat < 0x80 :=
    Nat.lt_of_le_of_lt (Char.isDigit_iff_toNat.1 h).2 (by decide)
  have numeric : Text.isNumeric c = true := by rw [Text.isNumeric, if_pos ascii, h]
  rw [continuesIdentifier, numeric, Bool.or_true]

/-- No reserved word ends in a digit. -/
theorem not_isReserved_of_getLast? {name : Text} {d : Char} (h : name.getLast? = some d)
    (digit : d.isDigit = true) : isReserved name = false := by
  have none_ends : ∀ word ∈ reservedWords, word.toList.getLast?.any Char.isDigit = false := by
    decide +kernel
  refine Bool.eq_false_iff.2 fun reserved => ?_
  obtain ⟨word, mem, same⟩ := List.any_eq_true.1 reserved
  obtain rfl : word.toList = name := eq_of_beq same
  have ends := none_ends word mem
  rw [h, Option.any_some, digit] at ends
  cases ends

end Name

namespace Record

/-! ## Safe names -/

theorem isSafe_iff {name : Text} :
    isSafe name = true ↔ Name.isIdentifier name = true ∧ Name.isReserved name = false := by
  simp [isSafe]

theorem isDigit_of_mem_ofNat {n : Nat} {c : Char} (h : c ∈ Text.ofNat n) : c.isDigit = true :=
  Nat.isDigit_of_mem_toDigits (by decide) (by decide) h

/-- A number behind an underscore ends in a digit, whatever stands before it. -/
theorem not_isReserved_numbered (name : Text) (n : Nat) :
    Name.isReserved (numbered name n) = false := by
  obtain ⟨begin, last, shape⟩ := (List.eq_nil_or_concat' _).resolve_left (Text.ofNat_ne_nil n)
  have ends : (numbered name n).getLast? = some last := by
    rw [numbered, shape, ← List.cons_append, ← List.append_assoc, List.getLast?_concat]
  have mem : last ∈ Text.ofNat n := by simp [shape]
  exact Name.not_isReserved_of_getLast? ends (isDigit_of_mem_ofNat mem)

theorem all_continues_ofNat (n : Nat) : (Text.ofNat n).all Name.continuesIdentifier = true :=
  List.all_eq_true.2 fun _ mem => Name.continuesIdentifier_of_isDigit (isDigit_of_mem_ofNat mem)

/-- Behind one character or more, a number changes nothing about being an identifier. -/
theorem isIdentifier_numbered {name : Text} (some_character : name ≠ []) (n : Nat) :
    Name.isIdentifier (numbered name n) = Name.isIdentifier name := by
  obtain ⟨first, rest, rfl⟩ := List.exists_cons_of_ne_nil some_character
  show (Name.startsIdentifier first && (rest ++ '_' :: Text.ofNat n).all _) = _
  rw [List.all_append, List.all_cons, all_continues_ofNat, Name.isIdentifier]
  simp [Name.continuesIdentifier, Name.startsIdentifier]

theorem isSafe_numbered {name : Text} (h : isSafe name = true) (n : Nat) :
    isSafe (numbered name n) = true := by
  obtain ⟨identifier, -⟩ := isSafe_iff.1 h
  refine isSafe_iff.2 ⟨?_, not_isReserved_numbered name n⟩
  rw [isIdentifier_numbered (Name.ne_nil_of_isIdentifier identifier), identifier]

theorem isSafe_safeName (index : Nat) (raw : Text) : isSafe (safeName index raw) = true := by
  unfold safeName
  split
  · rename_i safe
    simp only
    split
    · rename_i stripped
      exact stripped
    · exact safe
  · refine isSafe_iff.2 ⟨?_, not_isReserved_numbered [] index⟩
    show (Name.startsIdentifier '_' && (Text.ofNat index).all _) = true
    rw [all_continues_ofNat]
    rfl

theorem isSafe_takeName {name : Text} (h : isSafe name = true) (taken : OrderedMap Nat) :
    isSafe (takeName taken name).1 = true := by
  cases held : taken.contains name with
  | false =>
    rw [takeName_of_free held]
    exact h
  | true =>
    obtain ⟨_, found, -, step⟩ := takeName_of_held held
    rw [step]
    exact isSafe_numbered h found

/-! ## From the last field to the first -/

variable {index : Nat} {raw : Text} {rest fields : List Text}

theorem safeNamesFrom_cons (index : Nat) (raw : Text) (rest : List Text) :
    safeNamesFrom index (raw :: rest) =
      ((takeName (safeNamesFrom (index + 1) rest).2 (safeName index raw)).1 ::
          (safeNamesFrom (index + 1) rest).1,
        (takeName (safeNamesFrom (index + 1) rest).2 (safeName index raw)).2) := rfl

theorem length_safeNamesFrom (index : Nat) (fields : List Text) :
    (safeNamesFrom index fields).1.length = fields.length := by
  induction fields generalizing index with
  | nil => rfl
  | cons raw rest ih => rw [safeNamesFrom_cons, List.length_cons, ih, List.length_cons]

theorem isSafe_of_mem_safeNamesFrom {name : Text} (h : name ∈ (safeNamesFrom index fields).1) :
    isSafe name = true := by
  induction fields generalizing index with
  | nil => cases h
  | cons raw rest ih =>
    rw [safeNamesFrom_cons] at h
    rcases List.mem_cons.1 h with rfl | later
    · exact isSafe_takeName (isSafe_safeName index raw) _
    · exact ih later

/-- What is taken is just the names of the fields. -/
theorem contains_safeNamesFrom (index : Nat) (fields : List Text) (name : Text) :
    (safeNamesFrom index fields).2.contains name = true ↔
      name ∈ (safeNamesFrom index fields).1 := by
  induction fields generalizing index with
  | nil => simp [safeNamesFrom, OrderedMap.contains]
  | cons raw rest ih => rw [safeNamesFrom_cons, contains_takeName, ih, List.mem_cons]

theorem nodup_safeNamesFrom (index : Nat) (fields : List Text) :
    (safeNamesFrom index fields).1.Nodup := by
  induction fields generalizing index with
  | nil => exact List.nodup_nil
  | cons raw rest ih =>
    rw [safeNamesFrom_cons]
    refine List.nodup_cons.2 ⟨fun mem => ?_, ih (index + 1)⟩
    have fresh := takeName_fresh (safeNamesFrom (index + 1) rest).2 (safeName index raw)
    rw [(contains_safeNamesFrom _ _ _).2 mem] at fresh
    cases fresh

end Record

/-! ## Fields and their places -/

theorem Layout.lastIndex?_eq_some_iff {field : Text} {fields : List Text} {i : Nat}
    (distinct : fields.Nodup) : lastIndex? field fields = some i ↔ fields[i]? = some field := by
  induction fields generalizing i with
  | nil => simp [lastIndex?]
  | cons name rest ih =>
    obtain ⟨apart, others⟩ := List.nodup_cons.1 distinct
    cases here : lastIndex? field rest with
    | some later =>
      have place : rest[later]? = some field := (ih others).1 here
      have other : name ≠ field := fun same => apart (same ▸ List.mem_of_getElem? place)
      cases i with
      | zero => simp [lastIndex?, here, other]
      | succ i => simp [lastIndex?, here, ← ih others]
    | none =>
      have absent (i : Nat) : rest[i]? ≠ some field := by
        rw [ne_eq, ← ih others, here]
        rintro ⟨⟩
      cases i with
      | zero => simp [lastIndex?, here]
      | succ i => simp [lastIndex?, here, absent]

theorem Layout.indexOf?_eq_some_iff {layout : Layout} (distinct : layout.fields.Nodup)
    {field : Text} {i : Nat} : layout.indexOf? field = some i ↔ layout.fields[i]? = some field :=
  lastIndex?_eq_some_iff distinct

namespace Record

theorem construct_of_length {r : Record} {arguments : List Value}
    (h : arguments.length = r.fields.length) :
    r.construct arguments = .ok (.struct r.layout arguments) := if_pos h

/-- A struct gives back under each of its field names what stands at the field's place. -/
theorem field?_struct {layout : Layout} (distinct : layout.fields.Nodup) {values : List Value}
    {i : Nat} (h : i < layout.fields.length) :
    (Value.struct layout values).field? layout.fields[i] = values[i]? := by
  have place : layout.indexOf? layout.fields[i] = some i :=
    (Layout.indexOf?_eq_some_iff distinct).2 (List.getElem?_eq_getElem h)
  simp [Value.field?, place]

/-- Whatever the raw field names are: each search for a free number ends, one safe name comes
out for each field, and no two of them are alike. So a record with these fields takes any
arguments, one a field, and its value gives every argument back under the name of its field;
the place of a name and the name at a place undo one another. -/
theorem construct_field? (fields : List Text) :
    (∀ taken name n, Search taken name n (firstFree taken name n (taken.size + 1))) ∧
    (safeNames fields).length = fields.length ∧ (safeNames fields).Nodup ∧
    (∀ name ∈ safeNames fields, Name.isIdentifier name = true ∧ Name.isReserved name = false) ∧
    ∀ (r : Record) (name : Text), r = .ofFields name fields ∨
        (∃ raw, splitFields raw = fields ∧ r = .ofFieldList name raw) →
      r.fields = safeNames fields ∧
      (∀ field i, r.layout.indexOf? field = some i ↔ r.fields[i]? = some field) ∧
      ∀ arguments : List Value, arguments.length = fields.length →
        ∃ value, r.construct arguments = .ok value ∧
          ∀ i (h : i < r.fields.length), value.field? r.fields[i] = arguments[i]? := by
  have distinct : (safeNames fields).Nodup := nodup_safeNamesFrom 0 fields
  have length : (safeNames fields).length = fields.length := length_safeNamesFrom 0 fields
  refine ⟨search_firstFree, length, distinct,
    fun name mem => isSafe_iff.1 (isSafe_of_mem_safeNamesFrom mem), fun r name built => ?_⟩
  have same : r.fields = safeNames fields := by
    rcases built with rfl | ⟨raw, rfl, rfl⟩ <;> rfl
  have apart : r.fields.Nodup := same ▸ distinct
  refine ⟨same, fun field i => Layout.indexOf?_eq_some_iff apart, fun arguments arity => ?_⟩
  have filled : arguments.length = r.fields.length := by rw [arity, same, length]
  exact ⟨_, construct_of_length filled, fun i h => field?_struct apart h⟩

theorem construct_field?_repeated :
    let r := Record.ofFieldList "P".toList "a, a,int".toList
    r.fields = ["a_1".toList, "a".toList, "_2".toList] ∧
    ∃ value, r.construct [.int 1, .int 2, .int 3] = .ok value ∧
      value.field? "a_1".toList = some (.int 1) ∧ value.field? "a".toList = some (.int 2) ∧
      value.field? "_2".toList = some (.int 3) := by
  intro r
  have raw : splitFields "a, a,int".toList = ["a".toList, "a".toList, "int".toList] := by
    decide +kernel
  have names : safeNames ["a".toList, "a".toList, "int".toList] =
      ["a_1".toList, "a".toList, "_2".toList] := by decide +kernel
  obtain ⟨-, -, -, -, records⟩ := construct_field? ["a".toList, "a".toList, "int".toList]
  obtain ⟨fields, -, built⟩ := records r "P".toList (.inr ⟨_, raw, rfl⟩)
  rw [names] at fields
  obtain ⟨value, made, places⟩ := built [.int 1, .int 2, .int 3] rfl
  simp only [fields] at places
  exact ⟨fields, value, made, places 0 (by simp), places 1 (by simp), places 2 (by simp)⟩

end Record

end ConstantDump
