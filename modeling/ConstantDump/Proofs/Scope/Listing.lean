import ConstantDump.Proofs.Scope.Contents
import ConstantDump.Scope.Enumerations

/-!
The list of all enumerations of a scope, by the keys that lead to them.

* `Entry.memberEnumerations_eq`: the full names are these keys joined;
* `WellNamed.mem_listing_iff`: just the enumerations that the scope holds are listed;
* `WellNamed.pairwise_listing`: depth first, and in the order of the names.
-/

namespace ConstantDump

namespace Entry

mutual

/-- The enumerations in an entry, with the keys that lead from it to them. -/
def listing : Entry → List (List Text × Enumeration)
  | .value _ => []
  | .enumeration e => [([], e)]
  | .record _ m => memberListing m
  | .scope m => memberListing m

def memberListing : OrderedMap Entry → List (List Text × Enumeration)
  | ⟨entries⟩ => listingIn entries

def listingIn : List (Text × Entry) → List (List Text × Enumeration)
  | [] => []
  | (key, entry) :: rest =>
    (listing entry).map (fun place => (key :: place.1, place.2)) ++ listingIn rest

end

theorem memberListing_eq (m : OrderedMap Entry) :
    memberListing m = m.entries.flatMap fun child =>
      (listing child.2).map fun place => (child.1 :: place.1, place.2) := by
  obtain ⟨entries⟩ := m
  rw [memberListing]
  induction entries with
  | nil => rfl
  | cons child rest ih => rw [listingIn, ih, List.flatMap_cons]

theorem listing_of_members? {container : Entry} {members : Scope}
    (h : container.members? = some members) : listing container = memberListing members := by
  cases container <;> simp [members?] at h <;> rw [listing, h]

theorem ne_nil_of_mem_memberListing {m : OrderedMap Entry} {place : List Text × Enumeration}
    (h : place ∈ memberListing m) : place.1 ≠ [] := by
  rw [memberListing_eq] at h
  obtain ⟨child, -, inside⟩ := List.mem_flatMap.1 h
  obtain ⟨rest, -, rfl⟩ := List.mem_map.1 inside
  simp

theorem join_append_cons (before key : Text) (path : List Text) :
    Name.join ((before ++ key) :: path) = before ++ Name.join (key :: path) := by
  cases path <;> simp [Name.join, Text.join]

mutual

/-- The full names are the keys, joined. -/
theorem enumerations_eq (name : Text) : (entry : Entry) →
    enumerations name entry =
      (listing entry).map fun place => (Name.join (name :: place.1), place.2)
  | .value _ => rfl
  | .enumeration e => rfl
  | .record _ m => by
    rw [enumerations, listing, memberEnumerations_eq]
    refine List.map_congr_left fun place mem => ?_
    rw [Name.join_cons_of_ne_nil name (ne_nil_of_mem_memberListing mem)]
  | .scope m => by
    rw [enumerations, listing, memberEnumerations_eq]
    refine List.map_congr_left fun place mem => ?_
    rw [Name.join_cons_of_ne_nil name (ne_nil_of_mem_memberListing mem)]

theorem memberEnumerations_eq (before : Text) : (m : OrderedMap Entry) →
    memberEnumerations before m =
      (memberListing m).map fun place => (before ++ Name.join place.1, place.2)
  | ⟨entries⟩ => by rw [memberEnumerations, memberListing, enumerationsIn_eq]

theorem enumerationsIn_eq (before : Text) : (entries : List (Text × Entry)) →
    enumerationsIn before entries =
      (listingIn entries).map fun place => (before ++ Name.join place.1, place.2)
  | [] => rfl
  | (key, entry) :: rest => by
    rw [enumerationsIn, listingIn, List.map_append, enumerationsIn_eq before rest,
      enumerations_eq, List.map_map]
    simp only [join_append_cons, Function.comp_def]

end

end Entry

namespace Scope

/-- All enumerations of a scope, with the keys that lead to them. -/
def listing (s : Scope) : List (List Text × Enumeration) := Entry.memberListing s

theorem enumerations_eq (s : Scope) :
    s.enumerations = s.listing.map fun place => (Name.join place.1, place.2) :=
  Entry.memberEnumerations_eq [] s

/-- Where two ways part, the first one goes by a name that comes before the other's. -/
def Precedes (s : Scope) (path other : List Text) : Prop :=
  ∃ before key later rest rest', path = before ++ key :: rest ∧ other = before ++ later :: rest' ∧
    key ≠ later ∧ [key, later].Sublist (namesAt before s)

variable {s members : Scope} {path other : List Text} {e : Enumeration} {key : Text}

theorem Precedes.inside (declared : (s.childAt key).members? = some members)
    (h : Precedes members path other) : Precedes s (key :: path) (key :: other) := by
  obtain ⟨before, first, later, rest, rest', rfl, rfl, hne, order⟩ := h
  refine ⟨key :: before, first, later, rest, rest', rfl, rfl, hne, ?_⟩
  rwa [namesAt_inside declared]

theorem Precedes.ne (h : Precedes s path other) : path ≠ other := by
  obtain ⟨before, first, later, rest, rest', rfl, rfl, hne, -⟩ := h
  intro same
  exact hne (List.cons.inj (List.append_cancel_left same)).1

/-- What is listed is what the scope holds. -/
theorem WellNamed.mem_listing_iff (h : WellNamed s) :
    (path, e) ∈ s.listing ↔ Holds s path (.enumeration e) := by
  constructor
  · intro mem
    induction h generalizing path with
    | @intro s distinct inside ih =>
      rw [listing, Entry.memberListing_eq] at mem
      obtain ⟨⟨key, child⟩, here, mem⟩ := List.mem_flatMap.1 mem
      obtain ⟨⟨rest, e'⟩, listed, same⟩ := List.mem_map.1 mem
      cases same
      cases hm : child.members? with
      | some members =>
        rw [Entry.listing_of_members? hm] at listed
        exact .inside here hm (ih key child members here hm listed)
      | none =>
        rcases Entry.of_members?_eq_none hm with ⟨v, rfl⟩ | ⟨e'', rfl⟩
        · cases listed
        · obtain ⟨rfl, rfl⟩ : rest = [] ∧ e' = e'' := by simpa [Entry.listing] using listed
          exact .here here
  · intro holds
    clear h
    generalize he : Entry.enumeration e = entry at holds
    induction holds with
    | @here s key entry mem =>
      subst he
      rw [listing, Entry.memberListing_eq]
      exact List.mem_flatMap.2 ⟨_, mem, List.mem_map.2 ⟨([], e), by simp [Entry.listing], rfl⟩⟩
    | @inside s members key container entry path mem declared rest ih =>
      rw [listing, Entry.memberListing_eq]
      refine List.mem_flatMap.2 ⟨_, mem, List.mem_map.2 ⟨(path, e), ?_, rfl⟩⟩
      rw [Entry.listing_of_members? declared]
      exact ih he

/-- The list goes depth first, and in the order of the names. -/
theorem WellNamed.pairwise_listing (h : WellNamed s) :
    s.listing.Pairwise fun place later => Precedes s place.1 later.1 := by
  induction h with
  | @intro s distinct inside ih =>
    rw [listing, Entry.memberListing_eq, List.pairwise_flatMap]
    constructor
    · -- Inside one entry, the ways part further on.
      rintro ⟨key, child⟩ mem
      rw [List.pairwise_map]
      cases hm : child.members? with
      | some members =>
        have declared : (s.childAt key).members? = some members := by
          rw [childAt_of_get? (distinct.get?_of_mem mem)]
          exact hm
        rw [Entry.listing_of_members? hm]
        exact (ih key child members mem hm).imp fun order => order.inside declared
      | none =>
        rcases Entry.of_members?_eq_none hm with ⟨v, rfl⟩ | ⟨e, rfl⟩
        · exact .nil
        · exact List.pairwise_singleton ..
    · -- The ways to two entries part at once.
      rw [List.pairwise_iff_forall_sublist]
      rintro ⟨key, child⟩ ⟨later, child'⟩ order place mem place' mem'
      obtain ⟨rest, -, rfl⟩ := List.mem_map.1 mem
      obtain ⟨rest', -, rfl⟩ := List.mem_map.1 mem'
      have names : [key, later].Sublist s.keys := order.map Prod.fst
      have hne : key ≠ later := by simpa using distinct.sublist names
      exact ⟨[], key, later, rest.1, rest'.1, rfl, rfl, hne, names⟩

end Scope

end ConstantDump
