import ConstantDump.Proofs.Name.Numbered

/-!
Names whose path can be printed and read again.

* `Addressable`: the first component is not empty, and no marker of an anonymous namespace is
  left;
* `Addressable.path_join`: then each beginning of the path is the path of its own join.
-/

namespace ConstantDump.Name

/-- A name that is stored under a first component that is not empty, and under components
without markers. -/
structure Addressable (name : Text) : Prop where
  named : (path name).head? ≠ some []
  unmarked : ¬ anonymousNamespace <:+: normalize name

instance (name : Text) : Decidable (Addressable name) :=
  decidable_of_iff ((path name).head? ≠ some [] ∧ ¬ anonymousNamespace <:+: normalize name)
    ⟨fun ⟨n, u⟩ => ⟨n, u⟩, fun ⟨n, u⟩ => ⟨n, u⟩⟩

/-- A separator in front follows an empty component. -/
theorem head?_components_of_prefix {name : Text} (h : separator <+: name) :
    (components name).head? = some [] := by
  obtain ⟨rest, rfl⟩ := h
  rfl

/-- Each beginning of the components is the path of its join. -/
theorem Addressable.path_join {name : Text} (h : Addressable name) {begin : List Text}
    (hne : begin ≠ []) (pre : begin <+: path name) : path (join begin) = begin := by
  obtain ⟨rest, whole⟩ := pre
  have first : begin.head? ≠ some [] := by
    have head : (path name).head? = begin.head? := by
      rw [← whole, List.head?_append_of_ne_nil _ hne]
    rw [← head]
    exact h.named
  have parts : components (join begin) = begin := by
    by_cases hr : rest = []
    · rw [hr, List.append_nil] at whole
      rw [whole, path, join_components]
    · exact (components_eq_append whole.symm hne hr).2.1
  have inside : join begin <:+: normalize name := by
    have pre := join_isPrefix begin rest
    rw [whole, path, join_components] at pre
    exact pre.isInfix
  have same : normalize (join begin) = join begin := by
    refine normalize_of_unmarked (fun leading => first ?_) fun marker =>
      h.unmarked (marker.trans inside)
    rw [← head?_components_of_prefix leading, parts]
  rw [path, same, parts]

end ConstantDump.Name
