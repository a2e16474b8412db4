import ConstantDump.Proofs.Record.FieldNames

/-!
Field names that are made safe again. A safe name is stable when it is left as it is then.

* `isStable_numbered_iff`: a number leaves a name stable unless the name is a reserved word behind
  underscores, which the number makes safe without them;
* `isStable_of_mem_safeNamesFrom_iff`: so all names are stable exactly when no such word is repeated;
* `safeNames_again`: only then a second pass changes nothing, and a record's heading tells its
  fields; a third pass never does.
-/

namespace ConstantDump.Record

def bare (name : Text) : Text := name.dropWhile (· = '_')

/-- A name that is safe, and is not safe without underscores in front, or has none. -/
structure IsStable (name : Text) : Prop where
  safe : isSafe name = true
  settled : isSafe (bare name) = true → bare name = name

def IsGuardedWord (name : Text) : Prop :=
  ∃ (n : Nat) (word : Text), Name.isReserved word = true ∧
    name = List.replicate (n + 1) '_' ++ word

/-! ## Underscores in front -/

theorem head?_bare (name : Text) : (bare name).head? ≠ some '_' := by
  intro front
  have first := List.head?_dropWhile_not (fun c : Char => decide (c = '_')) name
  rw [show List.dropWhile _ name = bare name from rfl, front] at first
  cases first

theorem bare_of_head? {name : Text} (h : name.head? ≠ some '_') : bare name = name := by
  cases name with
  | nil => rfl
  | cons c name =>
    have other : c ≠ '_' := fun same => h (by rw [same]; rfl)
    exact List.dropWhile_cons_of_neg (by simpa using other)

theorem bare_bare (name : Text) : bare (bare name) = bare name := bare_of_head? (head?_bare name)

theorem startsIdentifier_of_isDigit {c : Char} (h : c.isDigit = true) :
    Name.startsIdentifier c = false := by
  have code : 48 ≤ c.toNat ∧ c.toNat ≤ 57 := Char.isDigit_iff_toNat.1 h
  have digits : ∀ n < 58, 48 ≤ n → Name.startsIdentifier (Char.ofNat n) = false := by decide
  rw [← Char.ofNat_toNat c]
  exact digits _ (Nat.lt_succ_of_le code.2) code.1

/-- A number is no identifier. -/
theorem not_isIdentifier_ofNat (n : Nat) : Name.isIdentifier (Text.ofNat n) = false := by
  obtain ⟨d, digits, shape⟩ := List.exists_cons_of_ne_nil (Text.ofNat_ne_nil n)
  have digit : d.isDigit = true := isDigit_of_mem_ofNat (n := n) (by simp [shape])
  rw [shape, Name.isIdentifier, startsIdentifier_of_isDigit digit, Bool.false_and]

theorem head?_ofNat (n : Nat) : (Text.ofNat n).head? ≠ some '_' := by
  intro front
  have digit := isDigit_of_mem_ofNat (List.mem_of_head? front)
  cases digit

/-- Without its underscore, a place among the fields is a number. -/
theorem bare_place (n : Nat) : bare ('_' :: Text.ofNat n) = Text.ofNat n :=
  bare_of_head? (head?_ofNat n)

theorem bare_numbered (name : Text) (n : Nat) :
    bare (numbered name n) = if bare name = [] then Text.ofNat n else numbered (bare name) n := by
  by_cases none : bare name = []
  · rw [if_pos none, ← bare_place]
    simp only [bare, numbered, List.dropWhile_append] at none ⊢
    simp [none]
  · rw [if_neg none]
    simp only [bare, numbered, List.dropWhile_append] at none ⊢
    simp [none]

/-! ## Reserved words -/

theorem isIdentifier_of_isReserved {word : Text} (h : Name.isReserved word = true) :
    Name.isIdentifier word = true ∧ word.head? ≠ some '_' := by
  have each : ∀ word ∈ Name.reservedWords, Name.isIdentifier word.toList = true ∧
      word.toList.head? ≠ some '_' := by decide +kernel
  obtain ⟨word, mem, same⟩ := List.any_eq_true.1 h
  obtain rfl := eq_of_beq same
  exact each word mem

theorem not_isReserved_ofNat (n : Nat) : Name.isReserved (Text.ofNat n) = false := by
  refine Bool.eq_false_iff.2 fun reserved => ?_
  have identifier := (isIdentifier_of_isReserved reserved).1
  rw [not_isIdentifier_ofNat] at identifier
  cases identifier

theorem isGuardedWord_iff {name : Text} :
    IsGuardedWord name ↔ bare name ≠ name ∧ Name.isReserved (bare name) = true := by
  constructor
  · rintro ⟨n, word, reserved, rfl⟩
    obtain ⟨-, front⟩ := isIdentifier_of_isReserved reserved
    have off : bare (List.replicate (n + 1) '_' ++ word) = word := by
      rw [bare, List.dropWhile_append_of_pos (by simp)]
      exact bare_of_head? front
    rw [off]
    refine ⟨fun same => front ?_, reserved⟩
    rw [same]
    rfl
  · rintro ⟨longer, reserved⟩
    have cut : name.takeWhile (· = '_') ++ bare name = name := List.takeWhile_append_dropWhile
    have underscores : name.takeWhile (· = '_') =
        List.replicate (name.takeWhile (· = '_')).length '_' :=
      List.eq_replicate_of_mem fun c mem => by simpa using List.mem_takeWhile_imp mem
    cases count : (name.takeWhile (· = '_')).length with
    | zero =>
      rw [List.length_eq_zero_iff.1 count] at cut
      exact absurd cut longer
    | succ n =>
      rw [count] at underscores
      exact ⟨n, bare name, reserved, by rw [← underscores, cut]⟩

theorem isIdentifier_of_isGuardedWord {word : Text} (h : IsGuardedWord word) :
    Name.isIdentifier word = true := by
  obtain ⟨n, keyword, reserved, rfl⟩ := h
  obtain ⟨identifier, -⟩ := isIdentifier_of_isReserved reserved
  have continues : (List.replicate n '_' ++ keyword).all Name.continuesIdentifier = true := by
    refine List.all_eq_true.2 fun c mem => ?_
    rcases List.mem_append.1 mem with underscore | letter
    · rw [List.eq_of_mem_replicate underscore]
      decide
    · exact Name.continuesIdentifier_of_mem identifier letter
  rw [List.replicate_succ, List.cons_append, Name.isIdentifier, continues]
  rfl

/-- A reserved word behind underscores is kept as it is. -/
theorem isStable_of_isGuardedWord {word : Text} (h : IsGuardedWord word) : IsStable word := by
  obtain ⟨longer, reserved⟩ := isGuardedWord_iff.1 h
  refine ⟨isSafe_iff.2 ⟨isIdentifier_of_isGuardedWord h, ?_⟩, fun safe => ?_⟩
  · refine Bool.eq_false_iff.2 fun keyword => longer ?_
    exact bare_of_head? (isIdentifier_of_isReserved keyword).2
  · rw [(isSafe_iff.1 safe).2] at reserved
    cases reserved

/-! ## One name -/

variable {index : Nat} {raw name : Text}

theorem isStable_of_bare (safe : isSafe name = true) (h : bare name = name) : IsStable name :=
  ⟨safe, fun _ => h⟩

/-- A place among the fields, as a name. -/
theorem isStable_place (index : Nat) : IsStable ('_' :: Text.ofNat index) := by
  refine ⟨isSafe_safeName index [], fun safe => ?_⟩
  rw [bare_place, isSafe, not_isIdentifier_ofNat] at safe
  cases safe

/-- What a raw name becomes: a name without underscores in front, the name itself, or its place. -/
theorem safeName_cases (index : Nat) (raw : Text) :
    safeName index raw = bare raw ∧ isSafe (bare raw) = true ∨
      safeName index raw = raw ∧ isSafe raw = true ∧ isSafe (bare raw) = false ∨
      safeName index raw = '_' :: Text.ofNat index := by
  unfold safeName
  split
  · rename_i safe
    simp only
    split
    · rename_i stripped
      exact .inl ⟨rfl, stripped⟩
    · rename_i stripped
      exact .inr (.inl ⟨rfl, safe, Bool.eq_false_iff.2 stripped⟩)
  · exact .inr (.inr rfl)

theorem isStable_safeName (index : Nat) (raw : Text) : IsStable (safeName index raw) := by
  rcases safeName_cases index raw with ⟨same, safe⟩ | ⟨same, safe, stripped⟩ | same
  · rw [same]
    exact isStable_of_bare safe (bare_bare raw)
  · rw [same]
    refine ⟨safe, fun again => ?_⟩
    rw [stripped] at again
    cases again
  · rw [same]
    exact isStable_place index

theorem safeName_of_isStable (h : IsStable name) (index : Nat) : safeName index name = name := by
  unfold safeName
  rw [if_pos h.safe]
  simp only
  split
  · rename_i stripped
    exact h.settled stripped
  · rfl

/-- A name becomes a reserved word behind underscores only if it was that. -/
theorem safeName_eq_of_isGuardedWord (h : IsGuardedWord (safeName index raw)) :
    safeName index raw = raw := by
  obtain ⟨longer, reserved⟩ := isGuardedWord_iff.1 h
  rcases safeName_cases index raw with ⟨same, -⟩ | ⟨same, -⟩ | same
  · rw [same] at longer
    exact absurd (bare_bare raw) longer
  · exact same
  · rw [same, bare_place, not_isReserved_ofNat] at reserved
    cases reserved

/-- With a number behind it, no name is a reserved word behind underscores. -/
theorem not_isGuardedWord_numbered (name : Text) (n : Nat) : ¬ IsGuardedWord (numbered name n) := by
  intro h
  obtain ⟨-, reserved⟩ := isGuardedWord_iff.1 h
  rw [bare_numbered] at reserved
  split at reserved
  · rw [not_isReserved_ofNat] at reserved
    cases reserved
  · rw [not_isReserved_numbered] at reserved
    cases reserved

/-- Underscores come off a name with a number just when the name without them is an identifier, and
they did not come off the name itself just when that one is reserved. -/
theorem isStable_numbered_iff (h : IsStable name) (n : Nat) :
    IsStable (numbered name n) ↔ ¬ IsGuardedWord name := by
  have safe := isSafe_numbered h.safe n
  rw [isGuardedWord_iff, not_and]
  by_cases front : bare name = name
  · -- Nothing is in front, so nothing comes off.
    have some_character : name ≠ [] := Name.ne_nil_of_isIdentifier (isSafe_iff.1 h.safe).1
    refine iff_of_true (isStable_of_bare safe ?_) fun longer => absurd front longer
    rw [bare_numbered, front, if_neg some_character]
  have held : isSafe (bare name) = false :=
    Bool.eq_false_iff.2 fun bare_safe => front (h.settled bare_safe)
  by_cases reserved : Name.isReserved (bare name) = true
  · -- The number makes the reserved word safe without its underscores.
    obtain ⟨identifier, -⟩ := isIdentifier_of_isReserved reserved
    have some_character := Name.ne_nil_of_isIdentifier identifier
    refine iff_of_false (fun stable => ?_) fun none => none front reserved
    have off : bare (numbered name n) = numbered (bare name) n := by
      rw [bare_numbered, if_neg some_character]
    have again : isSafe (numbered (bare name) n) = true := by
      refine isSafe_iff.2 ⟨?_, not_isReserved_numbered _ n⟩
      rw [isIdentifier_numbered some_character, identifier]
    have same := stable.settled (off ▸ again)
    rw [off] at same
    exact front (List.append_cancel_right same)
  · -- Without its underscores the name is no identifier, and so it is with the number.
    refine iff_of_true ⟨safe, fun again => ?_⟩ fun _ => reserved
    have other : Name.isIdentifier (bare name) = false := by
      refine Bool.eq_false_iff.2 fun identifier => ?_
      rw [isSafe_iff.2 ⟨identifier, Bool.eq_false_iff.2 reserved⟩] at held
      cases held
    obtain ⟨identifier, -⟩ := isSafe_iff.1 again
    rw [bare_numbered] at identifier
    split at identifier
    · rw [not_isIdentifier_ofNat] at identifier
      cases identifier
    · rename_i some_character
      rw [isIdentifier_numbered some_character, other] at identifier
      cases identifier

/-! ## All names -/

variable {fields names : List Text} {word : Text}

/-- The reserved words behind underscores are those of the raw names: no other name becomes one, and
one that comes again is there already. -/
theorem mem_safeNamesFrom_of_isGuardedWord (h : IsGuardedWord word) (index : Nat) :
    word ∈ (safeNamesFrom index fields).1 ↔ word ∈ fields := by
  induction fields generalizing index with
  | nil => rfl
  | cons raw rest ih =>
    have becomes : word = safeName index raw ↔ word = raw := by
      constructor
      · rintro rfl
        exact safeName_eq_of_isGuardedWord h
      · rintro rfl
        exact (safeName_of_isStable (isStable_of_isGuardedWord h) index).symm
    rw [safeNamesFrom_cons, List.mem_cons, List.mem_cons, ih (index + 1)]
    cases held : (safeNamesFrom (index + 1) rest).2.contains (safeName index raw) with
    | false => rw [takeName_of_free held, becomes]
    | true =>
      obtain ⟨_, found, -, step⟩ := takeName_of_held held
      have other : word ≠ numbered (safeName index raw) found := by
        rintro rfl
        exact not_isGuardedWord_numbered _ _ h
      have there : word = raw → word ∈ rest := by
        intro same
        rw [← ih (index + 1), becomes.2 same]
        exact (contains_safeNamesFrom _ _ _).1 held
      rw [step, or_iff_right other, or_iff_right_of_imp there]

/-- All names are stable just when no reserved word behind underscores is repeated. -/
theorem isStable_of_mem_safeNamesFrom_iff (index : Nat) (fields : List Text) :
    (∀ name ∈ (safeNamesFrom index fields).1, IsStable name) ↔
      ∀ word, IsGuardedWord word → fields.count word ≤ 1 := by
  induction fields generalizing index with
  | nil => simp [safeNamesFrom]
  | cons raw rest ih =>
    have base := isStable_safeName index raw
    rw [safeNamesFrom_cons, List.forall_mem_cons, ih (index + 1)]
    constructor
    · rintro ⟨first, others⟩ word guarded
      by_cases same : raw = word
      · subst same
        have kept := safeName_of_isStable (isStable_of_isGuardedWord guarded) index
        have absent : raw ∉ rest := by
          intro mem
          have held := (contains_safeNamesFrom (index + 1) rest raw).2
            ((mem_safeNamesFrom_of_isGuardedWord guarded (index + 1)).2 mem)
          rw [kept] at first
          obtain ⟨_, found, -, step⟩ := takeName_of_held held
          rw [step] at first
          exact (isStable_numbered_iff (kept ▸ base) found).1 first guarded
        rw [List.count_cons_self, List.count_eq_zero.2 absent]
      · rw [List.count_cons_of_ne same]
        exact others word guarded
    · intro all
      refine ⟨?_, fun word guarded => Nat.le_trans List.count_le_count_cons (all word guarded)⟩
      cases held : (safeNamesFrom (index + 1) rest).2.contains (safeName index raw) with
      | false =>
        rw [takeName_of_free held]
        exact base
      | true =>
        obtain ⟨_, found, -, step⟩ := takeName_of_held held
        rw [step]
        refine (isStable_numbered_iff base found).2 fun guarded => ?_
        have mem := (contains_safeNamesFrom _ _ _).1 held
        rw [mem_safeNamesFrom_of_isGuardedWord guarded, safeName_eq_of_isGuardedWord guarded] at mem
        have once := all _ guarded
        rw [safeName_eq_of_isGuardedWord guarded, List.count_cons_self] at once
        have again := List.count_pos_iff.2 mem
        omega

/-! ## The second pass -/

/-- Stable names of which no two are alike are left as they are. -/
theorem safeNamesFrom_of_isStable (stable : ∀ name ∈ names, IsStable name)
    (distinct : names.Nodup) (index : Nat) : (safeNamesFrom index names).1 = names := by
  induction names generalizing index with
  | nil => rfl
  | cons name rest ih =>
    obtain ⟨here, others⟩ := List.forall_mem_cons.1 stable
    obtain ⟨apart, later⟩ := List.nodup_cons.1 distinct
    have same := ih others later (index + 1)
    have free : (safeNamesFrom (index + 1) rest).2.contains name = false := by
      refine Bool.eq_false_iff.2 fun held => apart ?_
      rw [← same]
      exact (contains_safeNamesFrom _ _ _).1 held
    rw [safeNamesFrom_cons, safeName_of_isStable here, takeName_of_free free, same]

/-- The name that is given begins as the name that was asked for. -/
theorem head?_takeName (taken : OrderedMap Nat) (some_character : name ≠ []) :
    (takeName taken name).1.head? = name.head? := by
  cases held : taken.contains name with
  | false => rw [takeName_of_free held]
  | true =>
    obtain ⟨_, found, -, step⟩ := takeName_of_held held
    obtain ⟨c, rest, rfl⟩ := List.exists_cons_of_ne_nil some_character
    rw [step]
    rfl

/-- Names that are left as they are are stable: one that is not would lose its underscores. -/
theorem isStable_of_safeNamesFrom {index : Nat} (same : (safeNamesFrom index names).1 = names) :
    ∀ name ∈ names, IsStable name := by
  induction names generalizing index with
  | nil => exact fun _ h => nomatch h
  | cons name rest ih =>
    have safe : isSafe name = true :=
      isSafe_of_mem_safeNamesFrom (by rw [same]; exact List.mem_cons_self)
    rw [safeNamesFrom_cons] at same
    obtain ⟨first, others⟩ := List.cons.inj same
    refine List.forall_mem_cons.2 ⟨⟨safe, fun stripped => bare_of_head? ?_⟩, ih others⟩
    have becomes : safeName index name = bare name := by
      rw [safeName, if_pos safe]
      exact if_pos stripped
    have some_character := Name.ne_nil_of_isIdentifier (isSafe_iff.1 stripped).1
    rw [becomes] at first
    rw [← first, head?_takeName _ some_character]
    exact head?_bare name

theorem safeNames_eq_self_iff (fields : List Text) :
    safeNames (safeNames fields) = safeNames fields ↔
      ∀ word, IsGuardedWord word → fields.count word ≤ 1 := by
  rw [← isStable_of_mem_safeNamesFrom_iff 0 fields]
  exact ⟨isStable_of_safeNamesFrom,
    fun stable => safeNamesFrom_of_isStable stable (nodup_safeNamesFrom 0 fields) 0⟩

/-! ## Fields in a heading -/

/-- Safe names are cut apart again at the commas and blanks between them. -/
theorem splitFields_join (safe : ∀ name ∈ names, isSafe name = true) :
    splitFields (Text.join Value.comma names) = names := by
  have whole {name : Text} (h : isSafe name = true) :
      name.splitOnP (fun c => c = ',' || Text.isBlank c) = [name] := by
    refine List.splitOnP_eq_singleton fun c mem => ?_
    have continues := Name.continuesIdentifier_of_mem (isSafe_iff.1 h).1 mem
    have comma : c ≠ ',' := Name.ne_of_continues continues (by decide)
    simp [comma, Name.isBlank_of_continues continues]
  have shown {name : Text} (h : isSafe name = true) : name ≠ [] :=
    Name.ne_nil_of_isIdentifier (isSafe_iff.1 h).1
  induction names with
  | nil => rfl
  | cons name rest ih =>
    obtain ⟨here, others⟩ := List.forall_mem_cons.1 safe
    cases rest with
    | nil => simp [splitFields, Text.join, whole here, shown here]
    | cons next rest =>
      have shape : Text.join Value.comma (name :: next :: rest) =
          name ++ ',' :: ([] ++ ' ' :: Text.join Value.comma (next :: rest)) := by
        simp [Text.join, Value.comma]
      have behind := ih others
      rw [splitFields] at behind
      rw [splitFields, shape, List.splitOnP_append_cons _ _ (by decide),
        List.splitOnP_append_cons _ _ (by decide), whole here, List.splitOnP_nil]
      simp only [List.singleton_append, List.filter_cons]
      rw [behind]
      simp [shown here]

/-- A record from the fields that another one shows takes them through a second pass. -/
theorem fields_ofFieldList_of_display {r : Record} {first shown : Text}
    (built : r = .ofFields first fields) (second : Text)
    (heading : r.display = "record ".toList ++ r.name ++ '{' :: shown ++ ['}']) :
    (Record.ofFieldList second shown).fields = safeNames r.fields := by
  have fields_join : Text.join Value.comma r.fields = shown := by
    have behind : '{' :: Text.join Value.comma r.fields = '{' :: shown :=
      List.append_cancel_left (List.append_cancel_right heading)
    exact List.tail_eq_of_cons_eq behind
  have safe : ∀ name ∈ r.fields, isSafe name = true := by
    rw [built]
    exact fun name mem => isSafe_of_mem_safeNamesFrom mem
  show safeNames (splitFields shown) = safeNames r.fields
  rw [← fields_join, splitFields_join safe]

/-- For any raw field names: a second pass over the safe names changes nothing just when no reserved
word behind underscores is repeated among the raw ones, and a third pass changes nothing after the
second. So it is with the field list that a record shows in its heading: a record from that list has
the same fields just when no such word was repeated. -/
theorem safeNames_again (fields : List Text) :
    (safeNames (safeNames fields) = safeNames fields ↔
      ∀ word, IsGuardedWord word → fields.count word ≤ 1) ∧
    safeNames (safeNames (safeNames fields)) = safeNames (safeNames fields) ∧
    ∀ (r : Record) (first second shown : Text), r = .ofFields first fields ∨
        (∃ raw, splitFields raw = fields ∧ r = .ofFieldList first raw) →
      r.display = "record ".toList ++ r.name ++ '{' :: shown ++ ['}'] →
      (Record.ofFieldList second shown).fields = safeNames r.fields ∧
      ((Record.ofFieldList second shown).fields = r.fields ↔
        ∀ word, IsGuardedWord word → fields.count word ≤ 1) := by
  refine ⟨safeNames_eq_self_iff fields, ?_, fun r first second shown built heading => ?_⟩
  · have distinct : (safeNames fields).Nodup := nodup_safeNamesFrom 0 fields
    exact (safeNames_eq_self_iff (safeNames fields)).2
      fun word _ => List.nodup_iff_count_le_one.1 distinct word
  · have from_fields : r = .ofFields first fields := by
      rcases built with same | ⟨raw, rfl, same⟩ <;> exact same
    have second_pass := fields_ofFieldList_of_display from_fields second heading
    refine ⟨second_pass, ?_⟩
    rw [second_pass, from_fields]
    exact safeNames_eq_self_iff fields

theorem safeNames_again_kept :
    let r := Record.ofFieldList "P".toList "_int, a, _a, class".toList
    r.display = "record P{_int, a_1, a, _3}".toList ∧
    (Record.ofFieldList "Q".toList "_int, a_1, a, _3".toList).fields = r.fields := by
  intro r
  have raw : splitFields "_int, a, _a, class".toList =
      ["_int".toList, "a".toList, "_a".toList, "class".toList] := by decide +kernel
  have heading : r.display = "record P{_int, a_1, a, _3}".toList := by decide +kernel
  have distinct : ["_int".toList, "a".toList, "_a".toList, "class".toList].Nodup := by
    decide +kernel
  obtain ⟨-, -, records⟩ :=
    safeNames_again ["_int".toList, "a".toList, "_a".toList, "class".toList]
  obtain ⟨-, same⟩ := records r "P".toList "Q".toList "_int, a_1, a, _3".toList
    (.inr ⟨_, raw, rfl⟩) heading
  exact ⟨heading, same.2 fun word _ => List.nodup_iff_count_le_one.1 distinct word⟩

/-- The number behind the first of two reserved words lets a second pass take its underscore off:
`_int, _int` becomes `_int_1, _int`, and then `int_1, _int`. -/
theorem safeNames_again_ne :
    safeNames (safeNames ["_int".toList, "_int".toList]) ≠
      safeNames ["_int".toList, "_int".toList] := by decide +kernel

end ConstantDump.Record
