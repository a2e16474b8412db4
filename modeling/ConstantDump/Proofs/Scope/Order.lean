import ConstantDump.Scope.Equality

/-!
Scopes that differ only in the order of names.

* `Entry.Rearranged`: the same at every depth but for the order of members and of enumerators;
* `Rearranged.equal_eq`: no comparison of scopes as mappings tells them apart;
* `insert_comm`: two names may be inserted in either order.
-/

namespace ConstantDump

namespace Entry

mutual

/-- The same entry but for the order of names inside it. -/
inductive Rearranged : Entry → Entry → Prop
  | value (v : Value) : Rearranged (.value v) (.value v)
  | enumeration (name : Text) {items others : OrderedMap Int}
      (order : items.entries.Perm others.entries) :
      Rearranged (.enumeration ⟨name, items⟩) (.enumeration ⟨name, others⟩)
  | record (r : Record) {members others : OrderedMap Entry}
      (inside : RearrangedIn members.entries others.entries) :
      Rearranged (.record r members) (.record r others)
  | scope {members others : OrderedMap Entry}
      (inside : RearrangedIn members.entries others.entries) :
      Rearranged (.scope members) (.scope others)

/-- The same names in some order, each with the same entry but for the order inside it. -/
inductive RearrangedIn : List (Text × Entry) → List (Text × Entry) → Prop
  | nil : RearrangedIn [] []
  | cons (key : Text) {entry other : Entry} {rest others : List (Text × Entry)}
      (here : Rearranged entry other) (onward : RearrangedIn rest others) :
      RearrangedIn ((key, entry) :: rest) ((key, other) :: others)
  | swap (first second : Text × Entry) (rest : List (Text × Entry)) :
      RearrangedIn (first :: second :: rest) (second :: first :: rest)
  | trans {first second third : List (Text × Entry)} (before : RearrangedIn first second)
      (after : RearrangedIn second third) : RearrangedIn first third

end

/-! ## What is rearranged -/

mutual

theorem Rearranged.refl (entry : Entry) : Rearranged entry entry :=
  match entry with
  | .value v => .value v
  | .enumeration e => .enumeration e.name (.refl _)
  | .record r ⟨members⟩ => .record r (RearrangedIn.refl members)
  | .scope ⟨members⟩ => .scope (RearrangedIn.refl members)

theorem RearrangedIn.refl (entries : List (Text × Entry)) : RearrangedIn entries entries :=
  match entries with
  | [] => .nil
  | (key, entry) :: rest => .cons key (Rearranged.refl entry) (RearrangedIn.refl rest)

end

theorem RearrangedIn.of_perm {entries others : List (Text × Entry)}
    (h : entries.Perm others) : RearrangedIn entries others := by
  induction h with
  | nil => exact .nil
  | cons entry _ ih => exact .cons entry.1 (Rearranged.refl entry.2) ih
  | swap first second rest => exact .swap second first rest
  | trans _ _ before after => exact .trans before after

/-- Rearranged entries under one name. -/
theorem RearrangedIn.insertIn {entry other : Entry} (h : Rearranged entry other) (key : Text)
    (entries : List (Text × Entry)) :
    RearrangedIn (OrderedMap.insertIn key entry entries)
      (OrderedMap.insertIn key other entries) := by
  induction entries with
  | nil => exact .cons key h .nil
  | cons first rest ih =>
    by_cases hk : first.1 = key
    · simp only [OrderedMap.insertIn, hk, ↓reduceIte]
      exact .cons key h (.refl rest)
    · simp only [OrderedMap.insertIn, hk, ↓reduceIte]
      exact .cons first.1 (.refl first.2) ih

/-! ## What a comparison finds -/

theorem equalMembers_eq (members others : OrderedMap Entry) :
    equalMembers members others =
      (members.entries.length == others.size && equalIn members.entries others) := by
  cases members
  rfl

def matchesIn (members : OrderedMap Entry) (entry : Text × Entry) : Bool :=
  match members.get? entry.1 with
  | some other => entry.2.equal other
  | none => false

theorem equalIn_cons (entry : Text × Entry) (rest : List (Text × Entry))
    (members : OrderedMap Entry) :
    equalIn (entry :: rest) members = (matchesIn members entry && equalIn rest members) := rfl

mutual

theorem Rearranged.equal_eq {entry other : Entry} (h : Rearranged entry other)
    (third : Entry) : entry.equal third = other.equal third := by
  match h with
  | .value v => rfl
  | .enumeration name order =>
    cases third with
    | enumeration e =>
      simp only [equal, Enumeration.equal, OrderedMap.equalBy, OrderedMap.size,
        order.length_eq, order.all_eq]
    | value | record | scope => simp only [equal]
  | .record r inside =>
    cases third with
    | record q members =>
      simp only [equal, equalMembers_eq, RearrangedIn.length_eq inside,
        RearrangedIn.equalIn_eq inside]
    | value | enumeration | scope => simp only [equal]
  | .scope inside =>
    cases third with
    | scope members =>
      simp only [equal, equalMembers_eq, RearrangedIn.length_eq inside,
        RearrangedIn.equalIn_eq inside]
    | value | enumeration | record => simp only [equal]

theorem RearrangedIn.length_eq {entries others : List (Text × Entry)}
    (h : RearrangedIn entries others) : entries.length = others.length := by
  match h with
  | .nil => rfl
  | .cons key here onward => simp only [List.length_cons, RearrangedIn.length_eq onward]
  | .swap first second rest => rfl
  | .trans before after => exact before.length_eq.trans after.length_eq

theorem RearrangedIn.equalIn_eq {entries others : List (Text × Entry)}
    (h : RearrangedIn entries others) (members : OrderedMap Entry) :
    equalIn entries members = equalIn others members := by
  match h with
  | .nil => rfl
  | .cons key here onward =>
    rw [equalIn_cons, equalIn_cons, RearrangedIn.equalIn_eq onward members]
    simp only [matchesIn, Rearranged.equal_eq here]
  | .swap first second rest =>
    simp only [equalIn_cons, Bool.and_left_comm]
  | .trans before after =>
    exact (before.equalIn_eq members).trans (after.equalIn_eq members)

end

end Entry

namespace OrderedMap

variable {α : Type}

/-- Two names may be inserted in either order, but for their own order when both are new. -/
theorem insert_comm {key other : Text} (h : key ≠ other) (m : OrderedMap α) (value value' : α) :
    ((m.insert key value).insert other value').entries.Perm
      ((m.insert other value').insert key value).entries := by
  obtain ⟨entries⟩ := m
  simp only [insert]
  induction entries with
  | nil => simpa [insertIn, h, Ne.symm h] using List.Perm.swap ..
  | cons entry rest ih =>
    by_cases hk : entry.1 = key
    · simp [insertIn, hk, h]
    · by_cases ho : entry.1 = other
      · simp [insertIn, ho, h.symm]
      · simpa [insertIn, hk, ho] using ih

end OrderedMap

end ConstantDump
