import ConstantDump.Proofs.Literal.OneLine
import ConstantDump.Proofs.Scope.Contents
import ConstantDump.Proofs.Scope.Enumeration

/-!
Scopes without line feeds: neither in a name nor in what is shown of an entry, at any depth.

* `Assigned.oneLine`, `OneLine.addEnumerator`: assignments and enumerators of one line keep that;
* `oneLine_decodeIn`: a literal of one line has a value of one line in such a scope.
-/

namespace ConstantDump

open Text

/-- What is shown of an entry, apart from its name and from what is inside it. The name that the
values of a record bear is not shown with the record, but it is with each such value. -/
def Entry.texts : Entry → List Text
  | .value v => [v.display]
  | .enumeration e => e.items.keys
  | .record r _ => r.layout.typeName :: r.fields
  | .scope _ => []

theorem Entry.texts_withMembers (container : Entry) (members : Scope) :
    (container.withMembers members).texts = container.texts := by
  cases container <;> rfl

namespace Scope

/-- No name has a line feed, nor what is shown of an entry. -/
def OneLine (s : Scope) : Prop :=
  ∀ path entry, Holds s path entry →
    (∀ key ∈ path, key.OneLine) ∧ ∀ t ∈ entry.texts, t.OneLine

variable {s s' members : Scope} {entry container : Entry} {path : List Text} {component : Text}

theorem oneLine_empty : OneLine .empty := by
  intro path entry h
  cases h with
  | here mem => cases mem
  | inside mem _ _ => cases mem

theorem OneLine.inside (h : OneLine s) (there : Holds s path container)
    (declared : container.members? = some members) : OneLine members := by
  intro other entry inside
  obtain ⟨keys, texts⟩ := h _ _ (there.append declared inside)
  exact ⟨fun key mem => keys key (List.mem_append_right _ mem), texts⟩

theorem OneLine.insert (h : OneLine s) (key : component.OneLine)
    (texts : ∀ t ∈ entry.texts, t.OneLine)
    (inside : ∀ members, entry.members? = some members → OneLine members) :
    OneLine (s.insert component entry) := by
  intro path found holds
  rcases holds.of_insert with old | ⟨rest, rfl, ⟨rfl, rfl⟩ | ⟨members, declared, deeper⟩⟩
  · exact h _ _ old
  · exact ⟨by simpa using key, texts⟩
  · obtain ⟨keys, shown⟩ := inside members declared _ _ deeper
    exact ⟨by simpa using ⟨key, keys⟩, shown⟩

theorem OneLine.childAt (h : OneLine s) (component : Text) :
    (∀ t ∈ (s.childAt component).texts, t.OneLine) ∧
      ∀ members, (s.childAt component).members? = some members → OneLine members := by
  cases hg : s.get? component with
  | none =>
    have missing : s.childAt component = .scope .empty := by simp [Scope.childAt, hg]
    rw [missing]
    refine ⟨by simp [Entry.texts], fun members same => ?_⟩
    cases same
    exact oneLine_empty
  | some entry =>
    have there : Holds s [component] entry := .here (OrderedMap.mem_of_get? hg)
    rw [childAt_of_get? hg]
    exact ⟨(h _ _ there).2, fun members declared => h.inside there declared⟩

theorem oneLine_keys_of_insert {e e' : Enumeration} {name : Text} {value : Int}
    (h : e.insert name value = .ok e') (keys : ∀ key ∈ e.items.keys, key.OneLine) :
    ∀ key ∈ e'.items.keys, key.OneLine := by
  unfold Enumeration.insert at h
  split at h
  · rename_i identifier
    cases h
    intro key mem
    rw [OrderedMap.keys_insert] at mem
    split at mem
    · exact keys key mem
    · rcases List.mem_append.1 mem with old | new
      · exact keys key old
      · rw [List.mem_singleton.1 new]
        exact oneLine_of_isIdentifier identifier
  · cases h

theorem Assigned.oneLine (h : Assigned entry path s s') (lines : OneLine s)
    (keys : ∀ key ∈ path, key.OneLine) (texts : ∀ t ∈ entry.texts, t.OneLine)
    (inside : ∀ members, entry.members? = some members → OneLine members) : OneLine s' := by
  induction h with
  | last component s => exact lines.insert (keys _ (by simp)) texts inside
  | @inside component next rest s members members' container step ih =>
    obtain ⟨shown, declared⟩ := lines.childAt component
    have deeper := ih (declared members container) fun key mem => keys key (.tail _ mem)
    refine lines.insert (keys _ (by simp)) ?_ fun other same => ?_
    · rwa [Entry.texts_withMembers]
    · rw [Entry.members?_withMembers container] at same
      cases same
      exact deeper
  | @enumerator component name s e e' value found integral added =>
    have there : Holds s [component] (.enumeration e) := .here (OrderedMap.mem_of_get? found)
    refine lines.insert (keys _ (by simp)) ?_ fun members same => ?_
    · exact oneLine_keys_of_insert added (lines _ _ there).2
    · cases same

/-- An enumerator is added where the scope has names already. -/
theorem OneLine.addEnumerator {name enumerator : Text} {value : Int} (lines : OneLine s)
    (h : s.addEnumerator? name enumerator value = some (.ok s')) : OneLine s' := by
  obtain ⟨e, e', found, added, step⟩ := assigned_of_addEnumerator h
  obtain ⟨entry, stored, same⟩ := Option.bind_eq_some_iff.1 found
  cases entry with
  | enumeration _ =>
    cases same
    obtain ⟨keys, texts⟩ := lines _ _ (holds_of_stored? stored)
    refine step.oneLine lines keys (oneLine_keys_of_insert added texts) fun members same => ?_
    cases same
  | _ => cases same

/-! ## Values -/

theorem OneLine.types (h : OneLine s) : (Types.inScope s).OneLine := by
  intro name r found
  rcases (Option.orElse_eq_some _ _ _).1 found with declared | ⟨-, builtin⟩
  · obtain ⟨record, there, same⟩ := Option.map_eq_some_iff.1 declared
    cases same
    obtain ⟨entry, stored, same⟩ := Option.bind_eq_some_iff.1 there
    cases entry with
    | record _ _ =>
      cases same
      have texts := (h _ _ (holds_of_stored? stored)).2
      exact ⟨texts _ (by simp [Entry.texts]), fun field mem => texts field (.tail _ mem)⟩
    | _ => cases same
  · obtain ⟨type, -, same⟩ := Option.map_eq_some_iff.1 builtin
    cases same

theorem oneLine_decodeIn (h : OneLine s) {raw : Text} (line : raw.OneLine) :
    (Literal.decodeIn s raw).display.OneLine :=
  Literal.oneLine_decode h.types line

end Scope

end ConstantDump
