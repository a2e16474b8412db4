import ConstantDump.Text.Basic

/-!
Maps from names to values that keep the order in which names came first. Main
statements: what each operation does to a look-up and to the order of the names.
-/

namespace ConstantDump

/-- Named values in the order in which their names came first. -/
structure OrderedMap (α : Type) where
  entries : List (Text × α)
  deriving DecidableEq, Repr

namespace OrderedMap

variable {α : Type}

def empty : OrderedMap α := ⟨[]⟩

def keys (m : OrderedMap α) : List Text := m.entries.map (·.1)

def size (m : OrderedMap α) : Nat := m.entries.length

def isEmpty (m : OrderedMap α) : Bool := m.entries.isEmpty

/-- The value of the first entry with the name. -/
def findIn (key : Text) : List (Text × α) → Option α
  | [] => none
  | entry :: rest => if entry.1 = key then some entry.2 else findIn key rest

def get? (m : OrderedMap α) (key : Text) : Option α := findIn key m.entries

def contains (m : OrderedMap α) (key : Text) : Bool := (m.get? key).isSome

def insertIn (key : Text) (value : α) : List (Text × α) → List (Text × α)
  | [] => [(key, value)]
  | entry :: rest =>
    if entry.1 = key then (key, value) :: rest else entry :: insertIn key value rest

/-- Puts a value under a name: a name that is there keeps its place, a new one goes
last. -/
def insert (m : OrderedMap α) (key : Text) (value : α) : OrderedMap α :=
  ⟨insertIn key value m.entries⟩

/-- Takes a name away; the others keep their order. -/
def erase (m : OrderedMap α) (key : Text) : OrderedMap α :=
  ⟨m.entries.eraseP (·.1 = key)⟩

/-- Inserts the entries of `n` in their order. -/
def update (m n : OrderedMap α) : OrderedMap α :=
  n.entries.foldl (fun m entry => m.insert entry.1 entry.2) m

def ofList (entries : List (Text × α)) : OrderedMap α := empty.update ⟨entries⟩

def Distinct (m : OrderedMap α) : Prop := m.keys.Nodup

@[simp] theorem get?_empty (key : Text) : (empty : OrderedMap α).get? key = none := rfl

theorem get?_insert (m : OrderedMap α) (key other : Text) (value : α) :
    (m.insert key value).get? other = if other = key then some value else m.get? other := by
  unfold get? insert
  induction m.entries with
  | nil => simp [insertIn, findIn, eq_comm]
  | cons entry rest ih =>
    by_cases hk : entry.1 = key <;> by_cases ho : entry.1 = other <;>
      grind [insertIn, findIn]

@[simp] theorem get?_insert_self (m : OrderedMap α) (key : Text) (value : α) :
    (m.insert key value).get? key = some value := by simp [get?_insert]

theorem get?_insert_of_ne (m : OrderedMap α) {key other : Text} (value : α)
    (h : other ≠ key) : (m.insert key value).get? other = m.get? other := by
  simp [get?_insert, h]

/-- Putting back what is there changes nothing. -/
theorem insert_of_get?_eq_some {m : OrderedMap α} {key : Text} {value : α}
    (h : m.get? key = some value) : m.insert key value = m := by
  obtain ⟨entries⟩ := m
  simp only [get?, insert, mk.injEq] at *
  induction entries with
  | nil => simp [findIn] at h
  | cons entry rest ih =>
    by_cases hk : entry.1 = key
    · obtain rfl : entry.2 = value := by simpa [findIn, hk] using h
      simp [insertIn, ← hk]
    · simp only [findIn, hk, ↓reduceIte] at h
      simp [insertIn, hk, ih h]

theorem get?_eq_none_iff {m : OrderedMap α} {key : Text} : m.get? key = none ↔ key ∉ m.keys := by
  unfold get? keys
  induction m.entries with
  | nil => simp [findIn]
  | cons entry rest ih => by_cases h : entry.1 = key <;> grind [findIn]

/-- Inserting leaves the names as they are, or adds the new one at the end. -/
theorem keys_insert (m : OrderedMap α) (key : Text) (value : α) :
    (m.insert key value).keys = if key ∈ m.keys then m.keys else m.keys ++ [key] := by
  unfold keys insert
  induction m.entries with
  | nil => rfl
  | cons entry rest ih =>
    by_cases h : entry.1 = key
    · simp [insertIn, h]
    · have h' : key ≠ entry.1 := Ne.symm h
      simp only [insertIn, h, ↓reduceIte, List.map_cons, ih, List.mem_cons, h', false_or]
      split <;> simp

theorem Distinct.insert {m : OrderedMap α} (h : m.Distinct) (key : Text) (value : α) :
    (m.insert key value).Distinct := by
  unfold Distinct at *
  rw [keys_insert]
  split
  · exact h
  · rename_i hk
    exact List.nodup_append.2 ⟨h, by simp, by
      intro a ha b hb; simp only [List.mem_singleton] at hb; rintro rfl; exact hk (hb ▸ ha)⟩

end OrderedMap

end ConstantDump
