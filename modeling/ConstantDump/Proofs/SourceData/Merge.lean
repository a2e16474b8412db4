import ConstantDump.Proofs.Reader.Reads
import ConstantDump.SourceData
import Mathlib.Data.List.Basic

/-!
Merging source data. What is added overrides what is there, and a name keeps the place where it
came first.

* `OrderedMap.keys_update`, `OrderedMap.get?_update`: the names and the values after a merge;
  with the names distinct, nothing else is left to say (`OrderedMap.Distinct.ext`);
* `Scope.find?_update`: a look-up goes on in the scope that holds its first component last;
* `SourceData.Loaded.distinct`: the names of all that is loaded from dumps are distinct;
* `SourceData.update_laws`: merging is associative and idempotent, the empty data are neutral, and
  each name stands for what it stood for in one of the two scopes.
-/

namespace ConstantDump

namespace OrderedMap

variable {α : Type} {m n k : OrderedMap α}

/-! ## Maps without repeated names -/

instance (m : OrderedMap α) : Decidable m.Distinct := inferInstanceAs (Decidable m.keys.Nodup)

theorem Distinct.entries_eq (h : m.Distinct) :
    m.entries = m.keys.filterMap fun key => (m.get? key).map (key, ·) := by
  have here : m.entries.filterMap ((fun key => (m.get? key).map (key, ·)) ∘ Prod.fst) =
      m.entries.filterMap some :=
    List.filterMap_congr fun entry mem => by simp [h.get?_of_mem mem]
  rw [keys, List.filterMap_map, here, List.filterMap_some]

/-- The order of the names and the value of each make up the map. -/
theorem Distinct.ext (hm : m.Distinct) (hn : n.Distinct) (names : m.keys = n.keys)
    (values : ∀ key, m.get? key = n.get? key) : m = n := by
  have same : m.entries = n.entries := by
    rw [hm.entries_eq, hn.entries_eq, names]
    simp only [values]
  cases m
  exact congrArg mk same

/-! ## Merging two maps -/

theorem update_cons (m : OrderedMap α) (key : Text) (value : α) (rest : List (Text × α)) :
    m.update ⟨(key, value) :: rest⟩ = (m.insert key value).update ⟨rest⟩ := rfl

/-- What each insertion keeps is kept by a merge. -/
theorem update_induction {motive : OrderedMap α → Prop} (start : motive m)
    (step : ∀ key value, (key, value) ∈ n.entries → ∀ m, motive m → motive (m.insert key value)) :
    motive (m.update n) := by
  obtain ⟨entries⟩ := n
  induction entries generalizing m with
  | nil => exact start
  | cons entry rest ih =>
    exact ih (step _ _ (List.mem_cons_self ..) m start) fun key value mem =>
      step key value (.tail _ mem)

theorem Distinct.update (h : m.Distinct) (n : OrderedMap α) : (m.update n).Distinct :=
  update_induction h fun key value _ _ distinct => distinct.insert key value

theorem distinct_cons {key : Text} {value : α} {rest : List (Text × α)} :
    Distinct ⟨(key, value) :: rest⟩ ↔ key ∉ keys ⟨rest⟩ ∧ Distinct ⟨rest⟩ := List.nodup_cons

/-- The names of the first map keep their places, and those that are new come behind them. -/
theorem keys_update (m : OrderedMap α) (h : n.Distinct) :
    (m.update n).keys = m.keys ++ n.keys.filter (· ∉ m.keys) := by
  obtain ⟨entries⟩ := n
  induction entries generalizing m with
  | nil => simp [update, keys]
  | cons entry rest ih =>
    obtain ⟨key, value⟩ := entry
    obtain ⟨fresh, distinct⟩ := distinct_cons.1 h
    have names : keys ⟨(key, value) :: rest⟩ = key :: keys ⟨rest⟩ := rfl
    rw [update_cons, ih (m.insert key value) distinct, keys_insert, names]
    by_cases old : key ∈ m.keys
    · simp [old]
    · have others : (keys ⟨rest⟩).filter (· ∉ m.keys ++ [key]) =
          (keys ⟨rest⟩).filter (· ∉ m.keys) := by
        refine List.filter_congr fun other mem => ?_
        have hne : other ≠ key := fun same => fresh (same ▸ mem)
        simp [hne]
      simp only [old, ↓reduceIte, others, List.append_assoc, List.singleton_append,
        not_false_eq_true, decide_true, List.filter_cons_of_pos]

/-- A name has the value of the second map, and that of the first map if the second one does not
have it. -/
theorem get?_update (m : OrderedMap α) (h : n.Distinct) (key : Text) :
    (m.update n).get? key = (n.get? key).or (m.get? key) := by
  obtain ⟨entries⟩ := n
  induction entries generalizing m with
  | nil => rfl
  | cons entry rest ih =>
    obtain ⟨first, value⟩ := entry
    obtain ⟨fresh, distinct⟩ := distinct_cons.1 h
    rw [update_cons, ih (m.insert first value) distinct, get?_insert]
    by_cases same : key = first
    · have none_later : get? ⟨rest⟩ key = none := get?_eq_none_iff.2 (same ▸ fresh)
      rw [none_later, if_pos same]
      simp [get?, findIn, same]
    · have later : get? ⟨(first, value) :: rest⟩ key = get? ⟨rest⟩ key := by
        simp [get?, findIn, Ne.symm same]
      rw [later, if_neg same]

theorem update_assoc (hm : m.Distinct) (hn : n.Distinct) (hk : k.Distinct) :
    (m.update n).update k = m.update (n.update k) := by
  have inner : (n.update k).Distinct := hn.update k
  refine Distinct.ext ((hm.update n).update k) (hm.update _) ?_ fun key => ?_
  · have both (key : Text) : (key ∉ m.keys ∧ key ∉ n.keys) ↔
        key ∉ m.keys ++ n.keys.filter (· ∉ m.keys) := by
      by_cases old : key ∈ m.keys <;> simp [old]
    rw [keys_update _ hk, keys_update _ hn, keys_update _ inner, keys_update _ hk,
      List.filter_append, List.filter_filter, List.append_assoc]
    simp only [← both, Bool.decide_and]
  · rw [get?_update _ hk, get?_update _ hn, get?_update _ inner, get?_update _ hk, Option.or_assoc]

theorem empty_update (h : m.Distinct) : empty.update m = m := by
  have start : (empty : OrderedMap α).Distinct := List.nodup_nil
  refine Distinct.ext (start.update m) h ?_ fun key => ?_
  · have names : (empty : OrderedMap α).keys = [] := rfl
    simp [keys_update _ h, names]
  · simp [get?_update _ h]

theorem update_self (h : m.Distinct) : m.update m = m := by
  refine Distinct.ext (h.update m) h ?_ fun key => ?_
  · simp [keys_update _ h]
  · rw [get?_update _ h, Option.or_self]

end OrderedMap

namespace Scope

theorem wellNamed_update {s t : Scope} (h : WellNamed s) (h' : WellNamed t) :
    WellNamed (s.update t) :=
  OrderedMap.update_induction h fun _ _ mem _ names =>
    names.insert fun _ declared => h'.inside mem declared

/-- The first component decides in which of two merged scopes a look-up goes on. -/
theorem find?_update {s t : Scope} (h : t.Distinct) (component : Text) (rest : List Text) :
    find? (component :: rest) (s.update t) =
      if component ∈ t.keys then find? (component :: rest) t
      else find? (component :: rest) s := by
  have found := OrderedMap.get?_update s h component
  split
  · rename_i held
    obtain ⟨entry, there⟩ := Option.ne_none_iff_exists'.1 fun none =>
      OrderedMap.get?_eq_none_iff.1 none held
    rw [there, Option.some_or] at found
    exact find?_cons_congr (found.trans there.symm) rest
  · rename_i absent
    rw [OrderedMap.get?_eq_none_iff.2 absent, Option.none_or] at found
    exact find?_cons_congr found rest

/-- The components of a path begin with the first one of the name as it is stored. -/
theorem exists_path_eq (name : Text) :
    ∃ rest, Name.path name = (Name.splitFirst (Name.normalize name)).1 :: rest := by
  unfold Name.path Name.splitFirst
  rcases h : Name.components (Name.normalize name) with _ | ⟨first, _ | ⟨next, rest⟩⟩
  · exact absurd h (Name.components_ne_nil _)
  · exact ⟨[], rfl⟩
  · exact ⟨next :: rest, rfl⟩

theorem lookup_update {s t : Scope} (h : t.Distinct) (name : Text) :
    lookup (s.update t) name =
      if (Name.splitFirst (Name.normalize name)).1 ∈ t.keys then t.lookup name
      else s.lookup name := by
  obtain ⟨rest, path⟩ := exists_path_eq name
  have found := find?_update (s := s) h (Name.splitFirst (Name.normalize name)).1 rest
  rw [← path] at found
  split at found
  · rename_i held
    rw [if_pos held]
    exact lookup_congr found
  · rename_i absent
    rw [if_neg absent]
    exact lookup_congr found

end Scope

namespace SourceData

/-- No two constants and no two macros have one name. Constants inside scopes and records do not
matter here. -/
structure Distinct (data : SourceData) : Prop where
  scope : data.scope.Distinct
  macros : data.macros.Distinct

variable {a b c : SourceData}

/-- Data that come from dumps: from one after another, also when reading stops at a line that cannot
be read, or from several that are merged. -/
inductive Loaded : SourceData → Prop
  | empty : Loaded empty
  | load {data : SourceData} (h : Loaded data) (dump : Text) (macros : OrderedMap Text)
      (config : Config) : Loaded (data.load dump macros config).1
  | update {data other : SourceData} (h : Loaded data) (h' : Loaded other) :
      Loaded (data.update other)

theorem scope_load (data : SourceData) (dump : Text) (macros : OrderedMap Text)
    (config : Config) :
    (data.load dump macros config).1.scope =
      ((Reader.standard config).readInto dump data.scope).scope := by
  unfold load
  dsimp only
  split <;> rfl

theorem Loaded.wellNamed {data : SourceData} (h : data.Loaded) : data.scope.WellNamed := by
  induction h with
  | empty => exact Scope.wellNamed_empty
  | load _ dump macros config ih =>
    rw [scope_load]
    exact Reader.wellNamed_readInto ih _ dump
  | update _ _ ih ih' => exact Scope.wellNamed_update ih ih'

theorem Loaded.distinct {data : SourceData} (h : data.Loaded) : data.Distinct := by
  refine ⟨h.wellNamed.distinct, ?_⟩
  induction h with
  | empty => exact List.nodup_nil
  | @load data _ dump macros config ih =>
    unfold SourceData.load
    dsimp only
    split
    · exact ih.update macros
    · exact ih
  | @update data other _ _ ih _ => exact ih.update other.macros

/-- Merging in steps is merging at once; nothing comes of merging with nothing or with the same
data. Of two merged scopes, a name stands for what it does in the second one if its first
component is there, and else for what it does in the first one. -/
theorem update_laws (ha : a.Distinct) (hb : b.Distinct) (hc : c.Distinct) :
    (a.update b).update c = a.update (b.update c) ∧
    empty.update a = a ∧ a.update empty = a ∧ a.update a = a ∧
    ∀ name, (a.update b).scope.lookup name =
      if (Name.splitFirst (Name.normalize name)).1 ∈ b.scope.keys then b.scope.lookup name
      else a.scope.lookup name := by
  refine ⟨?_, ?_, rfl, ?_, Scope.lookup_update hb.scope⟩
  · exact congrArg₂ mk (OrderedMap.update_assoc ha.scope hb.scope hc.scope)
      (OrderedMap.update_assoc ha.macros hb.macros hc.macros)
  · exact congrArg₂ mk (OrderedMap.empty_update ha.scope) (OrderedMap.empty_update ha.macros)
  · exact congrArg₂ mk (OrderedMap.update_self ha.scope) (OrderedMap.update_self ha.macros)

/-- A namespace with one constant, a constant beside it, and two macros. -/
def olderData : SourceData where
  scope := .ofList [("ns".toList, .scope (.ofList [("a".toList, .value (.int 1))])),
    ("keep".toList, .value (.int 0))]
  macros := .ofList [("A".toList, "1".toList), ("B".toList, "old".toList)]

/-- The namespace with another constant, and other macros. -/
def newerData : SourceData where
  scope := .ofList [("top".toList, .value (.int 3)),
    ("ns".toList, .scope (.ofList [("b".toList, .value (.int 2))]))]
  macros := .ofList [("C".toList, "2".toList), ("B".toList, "new".toList)]

/-- The namespace is replaced at its old place. -/
theorem update_laws_replaced :
    olderData.Distinct ∧ newerData.Distinct ∧
    (olderData.update newerData).update olderData =
      olderData.update (newerData.update olderData) ∧
    (olderData.update newerData).scope.keys = ["ns".toList, "keep".toList, "top".toList] ∧
    (olderData.update newerData).macros.entries =
      [("A".toList, "1".toList), ("B".toList, "new".toList), ("C".toList, "2".toList)] ∧
    (olderData.update newerData).scope.lookup "::ns::a".toList =
      newerData.scope.lookup "::ns::a".toList ∧
    (olderData.update newerData).scope.lookup "keep".toList =
      olderData.scope.lookup "keep".toList := by
  have older : olderData.Distinct := ⟨by decide, by decide⟩
  have newer : newerData.Distinct := ⟨by decide, by decide⟩
  obtain ⟨assoc, -, -, -, names⟩ := update_laws older newer older
  have held : (Name.splitFirst (Name.normalize "::ns::a".toList)).1 ∈ newerData.scope.keys := by
    decide +kernel
  have absent : (Name.splitFirst (Name.normalize "keep".toList)).1 ∉ newerData.scope.keys := by
    decide +kernel
  exact ⟨older, newer, assoc, by decide, by decide, by rw [names, if_pos held],
    by rw [names, if_neg absent]⟩

end SourceData

end ConstantDump
