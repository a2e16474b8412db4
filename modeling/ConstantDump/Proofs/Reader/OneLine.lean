import ConstantDump.Proofs.Line.Named
import ConstantDump.Proofs.Record.FieldNames
import ConstantDump.Proofs.Scope.OneLine
import ConstantDump.Proofs.SourceData.Merge
import ConstantDump.Proofs.Text.Erase

/-!
What is read from dumps has no line feeds, since a dump is read line by line and what a line
declares is made up of its characters.

* `Declares.oneLine`, `Reads.oneLine`: a line of a dump, for readers of any kind and in any state;
* `oneLine_readInto`: a whole dump, also when reading it fails;
* `Loaded.oneLine`: one dump after another, and the merged constants of several.
-/

namespace ConstantDump

open Text

/-! ## Names -/

namespace Name

theorem subset_of_mem_components {name part : Text} (h : part ∈ components name) :
    part ⊆ name := by
  have joined : join (components name) = name := join_components name
  rw [← joined]
  exact subset_join separator h

theorem subset_splitLast (name : Text) : (splitLast name).2 ⊆ name := by
  have last : (components name).getLast?.getD name ⊆ name := by
    cases found : (components name).getLast? with
    | none => exact List.Subset.refl _
    | some part => exact subset_of_mem_components (List.mem_of_getLast? found)
  unfold splitLast
  dsimp only
  split <;> exact last

theorem normalize_subset (name : Text) : normalize name ⊆ name := by
  have leading : dropLeading name ⊆ name := by
    unfold dropLeading
    cases h : separator.isPrefixOf? name with
    | none => exact List.Subset.refl _
    | some rest =>
      rw [isPrefixOf?_eq_some_iff.1 h]
      exact List.subset_append_right ..
  have erased (t : Text) : erase (anonymousNamespace ++ separator) t ⊆ t := by
    intro c mem
    obtain ⟨before, after, cut⟩ := List.append_of_mem mem
    obtain ⟨before, after, rfl, -, -⟩ := erase_eq_append_cons (by decide) cut
    simp
  have ending (t : Text) : dropLastMarker t ⊆ t := by
    unfold dropLastMarker
    split
    · rename_i rest h
      rw [isSuffixOf?_eq_some_iff.1 h]
      exact List.subset_append_left ..
    · split
      · exact List.nil_subset _
      · exact List.Subset.refl _
  exact List.Subset.trans (ending _) (List.Subset.trans (erased _) leading)

theorem oneLine_path {name : Text} (h : name.OneLine) : ∀ key ∈ path name, key.OneLine :=
  fun _ mem => h.of_subset (List.Subset.trans (subset_of_mem_components mem) (normalize_subset name))

end Name

/-! ## What lines declare -/

namespace Line

theorem trimEnd_subset (t : Text) : trimEnd t ⊆ t := (List.rdropWhile_prefix _ _).subset

theorem oneLine_of_constant? {line name raw : Text} (h : constant? line = some (name, raw))
    (single : line.OneLine) : name.OneLine ∧ raw.OneLine := by
  have trimmed : (trim line).OneLine := single.of_subset fun c mem => mem_of_mem_trim mem
  unfold constant? at h
  dsimp only at h
  split at h
  · cases h
  obtain ⟨⟨before, after⟩, cut, h⟩ := Option.bind_eq_some_iff.1 h
  dsimp only at h
  split at h
  · cases h
  cases h
  constructor
  · obtain ⟨start, first, same⟩ := constantName_eq_trimEnd before
    rw [same]
    have beginning := (prefix_of_separateFrom cut).subset
    exact trimmed.of_subset
      (List.Subset.trans (trimEnd_subset start) (List.Subset.trans first.subset beginning))
  · have ending : after.OneLine := trimmed.of_subset (suffix_of_separateFrom cut).subset
    have value : (trim after).OneLine := ending.of_subset fun c mem => mem_of_mem_trim mem
    unfold constantValue
    dsimp only
    split
    · rename_i shorter comma
      rw [isSuffixOf?_eq_some_iff.1 comma, oneLine_append] at value
      exact value.1.of_subset (trimEnd_subset shorter)
    · exact value

theorem oneLine_of_literal? {line name raw : Text} (h : literal? line = some (name, raw)) :
    name.OneLine ∧ raw.OneLine := by
  obtain ⟨rest, directive, h⟩ := Option.bind_eq_some_iff.1 h
  obtain ⟨⟨_, _⟩, constant, h⟩ := Option.bind_eq_some_iff.1 h
  have single : rest.OneLine := by
    obtain ⟨after, -, directive⟩ := Option.bind_eq_some_iff.1 directive
    obtain ⟨words, -, directive⟩ := Option.bind_eq_some_iff.1 directive
    obtain ⟨⟨blanks, last⟩, -, directive⟩ := Option.bind_eq_some_iff.1 directive
    dsimp only at directive
    split at directive
    · cases directive
    · rename_i none
      cases directive
      exact none
  dsimp only at h
  split at h
  · cases h
    exact oneLine_of_constant? constant single
  · cases h

theorem oneLine_of_enumOpening? {line name : Text} (h : enumOpening? line = some name) :
    name.OneLine := by
  obtain ⟨rest, -, h⟩ := Option.bind_eq_some_iff.1 h
  obtain ⟨⟨blanks, after⟩, -, h⟩ := Option.bind_eq_some_iff.1 h
  obtain ⟨before, -, h⟩ := Option.bind_eq_some_iff.1 h
  dsimp only at h
  split at h
  · obtain ⟨blank, found, rfl⟩ := Option.map_eq_some_iff.1 h
    have other : blank ≠ '\n' := by simpa using List.find?_some found
    exact oneLine_cons.2 ⟨other, List.not_mem_nil⟩
  · split at h
    · cases h
    · rename_i none
      cases h
      exact none

theorem oneLine_of_record? {line name fields : Text} (h : record? line = some (name, fields))
    (single : line.OneLine) : name.OneLine := by
  unfold record? at h
  split at h
  · cases h
  split at h
  · cases h
  · cases h
  rename_i c rest braced
  have whole : OneLine (c :: rest) := by
    have kept : trimEnd (trimStart line) ⊆ line :=
      List.Subset.trans (trimEnd_subset _) (List.dropWhile_sublist _).subset
    rw [isSuffixOf?_eq_some_iff.1 braced] at kept
    exact single.of_subset (List.Subset.trans (List.subset_append_left ..) kept)
  split at h
  · rename_i before after brace
    cases h
    rw [eq_of_splitAtBrace? brace, oneLine_cons, oneLine_append] at whole
    exact (oneLine_cons.2 ⟨whole.1, whole.2.1⟩).of_subset (trimEnd_subset _)
  · split at h
    · cases h
      exact List.not_mem_nil
    · cases h

end Line

namespace Record

theorem oneLine_typeNameOf {name : Text} (h : name.OneLine) : (typeNameOf name).OneLine := by
  have plain : (Name.withoutTemplate (Name.splitLast name).2).OneLine :=
    h.of_subset (List.Subset.trans (Literal.withoutTemplateFrom_sublist [] 0 _).subset
      (Name.subset_splitLast name))
  unfold typeNameOf
  dsimp only
  split
  · exact oneLine_cons.2 ⟨by decide, plain⟩
  · exact plain

/-- Field names are identifiers, whatever the raw field list is. -/
theorem oneLine_fields (name raw : Text) :
    ∀ field ∈ (ofFieldList name raw).fields, field.OneLine := fun _ mem =>
  oneLine_of_isIdentifier (isSafe_iff.1 (isSafe_of_mem_safeNamesFrom mem)).1

end Record

theorem Counters.oneLine_number {name : Text} (h : name.OneLine) (counters : Counters) :
    (counters.number name).1.OneLine :=
  oneLine_append.2 ⟨h, oneLine_cons.2 ⟨by decide, oneLine_ofNat _⟩⟩

/-! ## Readers -/

namespace Reader

variable {s s' : Scope} {line : Text}

/-- A line of a scope without line feeds declares nothing that has one. -/
theorem Declares.oneLine {name : Text} {entry : Entry} (h : Declares line s name entry)
    (single : line.OneLine) (before : s.OneLine) :
    name.OneLine ∧ (∀ t ∈ entry.texts, t.OneLine) ∧
      ∀ members, entry.members? = some members → members.OneLine := by
  cases h with
  | constant h =>
    obtain ⟨named, valued⟩ := Line.oneLine_of_constant? h single
    exact ⟨named, List.forall_mem_singleton.2 (Scope.oneLine_decodeIn before valued),
      fun members same => by cases same⟩
  | literal h counters =>
    obtain ⟨named, valued⟩ := Line.oneLine_of_literal? h
    exact ⟨counters.oneLine_number named,
      List.forall_mem_singleton.2 (Scope.oneLine_decodeIn before valued),
      fun members same => by cases same⟩
  | @record _ fields h =>
    have named := Line.oneLine_of_record? h single
    refine ⟨named, List.forall_mem_cons.2
      ⟨Record.oneLine_typeNameOf named, Record.oneLine_fields name fields⟩, fun members same => ?_⟩
    cases same
    rcases Scope.holds_of_members? s name with none | ⟨container, there, members⟩
    · rw [none]
      exact Scope.oneLine_empty
    · exact before.inside there members
  | @enumeration plain h anonymous =>
    have named := Line.oneLine_of_enumOpening? h
    refine ⟨?_, List.forall_mem_nil _, fun members same => by cases same⟩
    unfold storedUnder
    split
    · exact anonymous.oneLine_number named
    · exact named

theorem Reads.oneLine (h : Reads line s s') (single : line.OneLine) (before : s.OneLine) :
    s'.OneLine := by
  induction h with
  | nothing s => exact before
  | stores declared step =>
    obtain ⟨named, texts, inside⟩ := declared.oneLine single before
    exact (Scope.assigned_path step).oneLine before (Name.oneLine_path named) texts inside
  | adds step => exact before.addEnumerator step
  | several _ _ first later => exact later (first before)

end Reader

/-! ## Dumps -/

theorem Text.oneLine_of_mem_lines {dump line : Text} (h : line ∈ lines dump) : line.OneLine := by
  have piece : ∀ p ∈ dump.splitOnP (· == '\n'), OneLine p := by
    clear h
    induction dump with
    | nil => simp [OneLine]
    | cons c rest ih =>
      rw [List.splitOnP_cons_eq_if_modifyHead]
      split
      · exact List.forall_mem_cons.2 ⟨List.not_mem_nil, ih⟩
      · rename_i other
        cases pieces : rest.splitOnP (· == '\n') with
        | nil => simp
        | cons first others =>
          rw [pieces, List.forall_mem_cons] at ih
          exact List.forall_mem_cons.2 ⟨oneLine_cons.2 ⟨by simpa using other, ih.1⟩, ih.2⟩
  have kept (p : Text) (hp : p.OneLine) : (dropReturn p).OneLine := by
    unfold dropReturn
    cases carriage : ['\r'].isSuffixOf? p with
    | none => exact hp
    | some shorter =>
      rw [isSuffixOf?_eq_some_iff.1 carriage, oneLine_append] at hp
      exact hp.1
  unfold lines at h
  generalize dump.splitOnP (· == '\n') = pieces at h piece
  fun_induction linesOfPieces pieces with
  | case1 => cases h
  | case2 => cases h
  | case3 last some_character =>
    rw [List.mem_singleton.1 h]
    exact piece last (List.mem_singleton.2 rfl)
  | case4 first next rest ih =>
    rcases List.mem_cons.1 h with rfl | later
    · exact kept first (piece first (List.mem_cons_self ..))
    · exact ih later fun p mem => piece p (.tail _ mem)

theorem Reader.oneLine_readInto {s : Scope} (h : s.OneLine) (reader : Reader) (dump : Text) :
    (reader.readInto dump s).scope.OneLine :=
  readInto_induction h (fun _ mem _ _ reads => reads.oneLine (oneLine_of_mem_lines mem)) reader

theorem Scope.oneLine_update {s t : Scope} (h : s.OneLine) (h' : t.OneLine) :
    OneLine (s.update t) :=
  OrderedMap.update_induction h fun key entry mem _ before => by
    obtain ⟨named, texts⟩ := h' _ _ (.here mem)
    exact before.insert (named key (List.mem_singleton.2 rfl)) texts fun members declared =>
      h'.inside (.here mem) declared

theorem SourceData.Loaded.oneLine {data : SourceData} (h : data.Loaded) : data.scope.OneLine := by
  induction h with
  | empty => exact Scope.oneLine_empty
  | load _ dump macros config ih =>
    rw [scope_load]
    exact Reader.oneLine_readInto ih _ dump
  | update _ _ ih ih' => exact Scope.oneLine_update ih ih'

end ConstantDump
