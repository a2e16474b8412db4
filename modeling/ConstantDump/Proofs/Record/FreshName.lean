import ConstantDump.Proofs.Name.Numbered
import ConstantDump.Record.Fields
import Mathlib.Data.List.Nodup
import Mathlib.Data.List.Perm.Subperm

/-!
Names that are not taken yet. A taken name gets the first number with which it is free.

* `search_firstFree`: the search for that number ends, and a try more than there are taken names
  is enough for it;
* `takeName_fresh`, `contains_takeName`: the name that is given was free, and no other one is
  taken with it.
-/

namespace ConstantDump

namespace OrderedMap

variable {α : Type} {m : OrderedMap α}

theorem contains_iff_mem_keys {key : Text} : m.contains key = true ↔ key ∈ m.keys := by
  rw [contains, Option.isSome_iff_ne_none, ne_eq, get?_eq_none_iff, not_not]

theorem contains_insert (key other : Text) (value : α) :
    (m.insert key value).contains other = true ↔ other = key ∨ m.contains other = true := by
  rw [contains, contains, get?_insert]
  split <;> simp_all

theorem length_keys (m : OrderedMap α) : m.keys.length = m.size := List.length_map ..

end OrderedMap

namespace Record

variable {taken : OrderedMap Nat} {name : Text} {n found : Nat}

/-- The search that has no bound: from `n` on, number by number, up to one with which the name
is not taken. -/
inductive Search (taken : OrderedMap Nat) (name : Text) : (n found : Nat) → Prop
  | stops {n : Nat} (free : taken.contains (numbered name n) = false) : Search taken name n n
  | goes_on {n found : Nat} (held : taken.contains (numbered name n) = true)
      (later : Search taken name (n + 1) found) : Search taken name n found

theorem Search.free (h : Search taken name n found) :
    taken.contains (numbered name found) = false := by
  induction h with
  | stops free => exact free
  | goes_on _ _ ih => exact ih

theorem numbered_injective {i j : Nat} (h : numbered name i = numbered name j) : i = j :=
  Text.ofNat_injective (List.cons.inj (List.append_cancel_left h)).2

/-- There are no more numbers in a row with which the name is taken than there are taken
names. -/
theorem le_size_of_held {tries : Nat}
    (held : ∀ i < tries, taken.contains (numbered name (n + i)) = true) : tries ≤ taken.size := by
  have distinct : ((List.range tries).map fun i => numbered name (n + i)).Nodup := by
    refine List.Nodup.map (fun i j h => ?_) List.nodup_range
    exact Nat.add_left_cancel (numbered_injective h)
  have inside : ((List.range tries).map fun i => numbered name (n + i)) ⊆ taken.keys := by
    intro candidate mem
    obtain ⟨i, hi, rfl⟩ := List.mem_map.1 mem
    exact OrderedMap.contains_iff_mem_keys.1 (held i (List.mem_range.1 hi))
  have fits := (distinct.subperm inside).length_le
  rwa [List.length_map, List.length_range, OrderedMap.length_keys] at fits

/-- A search with a number of tries finds what the one without a bound does, or all its tries
were taken. -/
theorem search_or_held (taken : OrderedMap Nat) (name : Text) (n tries : Nat) :
    Search taken name n (firstFree taken name n tries) ∨
      ∀ i < tries, taken.contains (numbered name (n + i)) = true := by
  induction tries generalizing n with
  | zero => exact .inr fun i hi => absurd hi (Nat.not_lt_zero i)
  | succ tries ih =>
    rw [firstFree]
    split
    · rename_i here
      rcases ih (n + 1) with found | all
      · exact .inl (.goes_on here found)
      · refine .inr fun i hi => ?_
        cases i with
        | zero => exact here
        | succ i =>
          rw [Nat.add_comm i 1, ← Nat.add_assoc]
          exact all i (Nat.lt_of_succ_lt_succ hi)
    · rename_i here
      exact .inl (.stops (Bool.eq_false_iff.2 here))

/-- The search ends, and the bound on the tries is never reached. -/
theorem search_firstFree (taken : OrderedMap Nat) (name : Text) (n : Nat) :
    Search taken name n (firstFree taken name n (taken.size + 1)) := by
  rcases search_or_held taken name n (taken.size + 1) with found | all
  · exact found
  · exact absurd (le_size_of_held all) (Nat.not_succ_le_self _)

/-! ## Taking a name -/

theorem takeName_of_free (h : taken.contains name = false) :
    takeName taken name = (name, taken.insert name 1) := by
  have absent : taken.get? name = none := by simpa [OrderedMap.contains] using h
  rw [takeName, absent]

/-- A taken name is given with a number. -/
theorem takeName_of_held (h : taken.contains name = true) :
    ∃ count found, Search taken name count found ∧
      takeName taken name =
        (numbered name found, (taken.insert name (found + 1)).insert (numbered name found) 1) := by
  obtain ⟨count, present⟩ := Option.isSome_iff_exists.1 h
  refine ⟨count, _, search_firstFree taken name count, ?_⟩
  rw [takeName, present]

/-- The name that is given was not taken. -/
theorem takeName_fresh (taken : OrderedMap Nat) (name : Text) :
    taken.contains (takeName taken name).1 = false := by
  cases h : taken.contains name with
  | false =>
    rw [takeName_of_free h]
    exact h
  | true =>
    obtain ⟨count, found, search, step⟩ := takeName_of_held h
    rw [step]
    exact search.free

/-- That name is taken then, and the others stay as they are. -/
theorem contains_takeName (taken : OrderedMap Nat) (name other : Text) :
    (takeName taken name).2.contains other = true ↔
      other = (takeName taken name).1 ∨ taken.contains other = true := by
  cases h : taken.contains name with
  | false =>
    rw [takeName_of_free h]
    exact OrderedMap.contains_insert ..
  | true =>
    obtain ⟨count, found, -, step⟩ := takeName_of_held h
    have name_stays : other = name ∨ taken.contains other = true ↔ taken.contains other = true :=
      or_iff_right_of_imp fun same => same ▸ h
    rw [step, OrderedMap.contains_insert, OrderedMap.contains_insert, name_stays]

end Record

end ConstantDump
