import ConstantDump.Scope.Basic
import ConstantDump.Value.Equality

/-!
Equality of scopes. As mappings, the order of names does not count, neither in scopes nor
in enumerations; records are equal with the same name, layout and members. Main
statement: the comparison entry by entry decides whether two scopes are the same.
-/

namespace ConstantDump

/-- Whether two maps have the same names with equal values. -/
def OrderedMap.equalBy {α : Type} (equal : α → α → Bool) (m n : OrderedMap α) : Bool :=
  m.size == n.size && m.entries.all fun (key, value) => (n.get? key).any (equal value)

def Enumeration.equal (e f : Enumeration) : Bool :=
  e.name == f.name && e.items.equalBy (· == ·) f.items

namespace Entry

/-! ## As mappings -/

mutual

def equal : Entry → Entry → Bool
  | .value v, .value w => v.equal w
  | .enumeration e, .enumeration f => e.equal f
  | .record r m, .record q n => r == q && equalMembers m n
  | .scope m, .scope n => equalMembers m n
  | _, _ => false

def equalMembers : OrderedMap Entry → OrderedMap Entry → Bool
  | ⟨entries⟩, n => entries.length == n.size && equalIn entries n

/-- Whether the entries are equal to those under their names. -/
def equalIn : List (Text × Entry) → OrderedMap Entry → Bool
  | [], _ => true
  | (key, entry) :: rest, n =>
    (match n.get? key with
      | some other => entry.equal other
      | none => false) && equalIn rest n

end

/-! ## Entry by entry -/

mutual

def same : Entry → Entry → Bool
  | .value v, .value w => v == w
  | .enumeration e, .enumeration f => e == f
  | .record r m, .record q n => r == q && sameMembers m n
  | .scope m, .scope n => sameMembers m n
  | _, _ => false

def sameMembers : OrderedMap Entry → OrderedMap Entry → Bool
  | ⟨entries⟩, ⟨others⟩ => sameIn entries others

/-- Whether two lists have the same names and entries at the same places. -/
def sameIn : List (Text × Entry) → List (Text × Entry) → Bool
  | [], [] => true
  | (key, entry) :: rest, (key', entry') :: rest' =>
    key == key' && entry.same entry' && sameIn rest rest'
  | _, _ => false

end

mutual

theorem same_iff (e f : Entry) : e.same f = true ↔ e = f := by
  cases e <;> cases f <;> simp [same]
  case record.record r m q n => exact fun _ => sameMembers_iff m n
  case scope.scope m n => exact sameMembers_iff m n

theorem sameMembers_iff (m n : OrderedMap Entry) : sameMembers m n = true ↔ m = n := by
  obtain ⟨entries⟩ := m
  obtain ⟨others⟩ := n
  simp [sameMembers, sameIn_iff entries others]

theorem sameIn_iff (es fs : List (Text × Entry)) : sameIn es fs = true ↔ es = fs := by
  cases es with
  | nil => cases fs <;> simp [sameIn]
  | cons e es =>
    cases fs with
    | nil => simp [sameIn]
    | cons f fs =>
      obtain ⟨key, entry⟩ := e
      obtain ⟨key', entry'⟩ := f
      simp [sameIn, same_iff entry entry', sameIn_iff es fs]

end

instance : DecidableEq Entry := fun e f => decidable_of_iff _ (same_iff e f)

end Entry

def Scope.equal (s t : Scope) : Bool := Entry.equalMembers s t

end ConstantDump
