import ConstantDump.Proofs.Line.Written
import ConstantDump.Proofs.Name.Qualified
import ConstantDump.Proofs.Reader.Failure
import ConstantDump.Proofs.Scope.Enumeration
import ConstantDump.Proofs.Scope.Overwrite

/-!
A whole enumeration in a dump: the opening line, a line for each enumerator, and the closing
brace. Each enumerator is stored twice, by the enumeration reader and by the constants reader.
Main statement, `readInto_block`: the scope is the one that a single assignment of the whole
enumeration leaves, and the second storing changes nothing.
-/

namespace ConstantDump.Reader

/-- An enumerator as it is written: its value behind ` = ` or behind `:=`. -/
structure Member where
  name : Text
  value : Int
  spaced : Bool

namespace Member

def line (scope : Text) (m : Member) : Text :=
  (scope ++ (Name.separator ++ m.name)) ++
    (Line.assigns m.spaced ++ (Text.ofInt m.value ++ [',']))

structure Valid (m : Member) : Prop where
  identifier : Name.isIdentifier m.name = true
  inRange : Literal.inRange m.value = true

end Member

def openingLine (name : Text) : Text := "enum ".toList ++ (name ++ " \x7b".toList)

theorem openingLine_eq (name : Text) :
    openingLine name = "enum ".toList ++ (name ++ " \x7b".toList) := rfl

def closingLine : Text := "\x7d".toList

def blockLines (name : Text) (members : List Member) : List Text :=
  openingLine name :: (members.map (Member.line name) ++ [closingLine])

def enumerationOf (name : Text) (members : List Member) : Enumeration :=
  ⟨name, .ofList (members.map fun m => (m.name, m.value))⟩

variable {config : Config} {opened opened' : Option Text}
variable {anonymous anonymous' literals : Counters} {number : Nat} {line : Text}
variable {s t t' : Scope} {parts : List Text} {last : Text} {m : Member} {e : Enumeration}

theorem insert_enumerationOf (last : Text) (before : List Member) (h : m.Valid) :
    (enumerationOf last before).insert m.name m.value =
      .ok (enumerationOf last (before ++ [m])) := by
  simp only [Enumeration.insert, h.identifier, ↓reduceIte, enumerationOf, List.map_append,
    List.map_cons, List.map_nil, OrderedMap.ofList_concat]

/-- To insert the last member again changes nothing. -/
theorem insert_enumerationOf_self (last : Text) (before : List Member) (h : m.Valid) :
    (enumerationOf last (before ++ [m])).insert m.name m.value =
      .ok (enumerationOf last (before ++ [m])) := by
  simp only [Enumeration.insert, h.identifier, ↓reduceIte, enumerationOf, List.map_append,
    List.map_cons, List.map_nil, OrderedMap.ofList_concat, OrderedMap.insert_insert]

/-! ## One line -/

/-- A line of the enumeration reader and maybe of the constants reader, but of no other. -/
theorem line_standardWith_of_enums (config : Config) (literals : Counters) {recognized : Bool}
    (record : Line.record? line = none)
    (literal : Line.literal? line = none)
    (enums : lineEnums opened anonymous number line s =
      ⟨.enums opened' anonymous', t, .ok true⟩)
    (constants : Reader.constants.line number line t = ⟨.constants, t', .ok recognized⟩) :
    (standardWith config opened anonymous literals).line number line s =
      ⟨standardWith config opened' anonymous' literals, t', .ok true⟩ := by
  have first := line_records_of_none record number s
  have second : (Reader.enums opened anonymous).line number line s =
      ⟨.enums opened' anonymous', t, .ok true⟩ := enums
  have fourth : (Reader.literals literals).line number line t' =
      ⟨.literals literals, t', .ok false⟩ := by
    rw [Reader.line, lineLiterals_eq, literalItem?_eq_none literal, literalCounters, literal]
    rfl
  rw [standardWith, Reader.line]
  simp only [lineAll, first, second, constants, fourth, declined, Except.map, Config.accepts]
  simp [standardWith]

theorem constants_line_of_none (h : Line.constant? line = none) (number : Nat) (s : Scope) :
    Reader.constants.line number line s = ⟨.constants, s, .ok false⟩ := by
  rw [Reader.line, lineConstants_eq, constantItem?_eq_none h]
  rfl

/-- The closing line closes it. -/
theorem line_closingLine (config : Config) (anonymous literals : Counters) (number : Nat)
    (t : Scope) (name : Text) :
    (standardWith config (some name) anonymous literals).line number closingLine t =
      ⟨standardWith config none anonymous literals, t, .ok true⟩ := by
  have enums : lineEnums (some name) anonymous number closingLine t =
      ⟨.enums none anonymous, t, .ok true⟩ := rfl
  exact line_standardWith_of_enums config literals rfl rfl enums
    (constants_line_of_none rfl number t)

/-! ## Names of identifiers -/

/-- A name of identifiers can stand in front of a value. -/
theorem assignable_join (h : ∀ part ∈ parts, Name.isIdentifier part = true) (hne : parts ≠ []) :
    Line.Assignable (Name.join parts) where
  plain := by
    intro c hc
    rcases Name.mem_join hc with rfl | ⟨part, hp, hm⟩
    · decide
    · have continues := Name.continuesIdentifier_of_mem (h part hp) hm
      have other (d : Char) (hd : Name.continuesIdentifier d = false) : c ≠ d :=
        Name.ne_of_continues continues hd
      simp only [Line.decides, Bool.or_eq_false_iff, decide_eq_false_iff_not]
      exact ⟨⟨⟨⟨⟨⟨other _ (by decide), other _ (by decide)⟩, other _ (by decide)⟩,
        other _ (by decide)⟩, other _ (by decide)⟩, other _ (by decide)⟩, other _ (by decide)⟩
  first := by
    obtain ⟨c, head, continues⟩ := Name.head?_join h hne
    exact ⟨c, head, Name.isBlank_of_continues continues,
      Name.ne_of_continues continues (by decide)⟩
  last := by
    obtain ⟨c, last, continues⟩ := Name.getLast?_join h hne
    exact ⟨c, last, Name.isBlank_of_continues continues,
      Name.ne_of_continues continues (by decide)⟩

theorem isAnonymous_identifier {name : Text} (h : Name.isIdentifier name = true) :
    Line.isAnonymous name = false := by
  have parenthesis : '(' ∉ name := Name.not_mem_of_isIdentifier h (by decide)
  unfold Line.isAnonymous
  cases hp : ['('].isPrefixOf? name with
  | none => rfl
  | some rest =>
    refine absurd ?_ parenthesis
    rw [Text.isPrefixOf?_eq_some_iff.1 hp]
    simp

/-! ## The lines -/

section Lines

variable (qualified : ∀ part ∈ parts ++ [last], Name.isIdentifier part = true)
include qualified

theorem enumOpening?_openingLine :
    Line.enumOpening? (openingLine (Name.join (parts ++ [last]))) =
      some (Name.join (parts ++ [last])) := by
  obtain ⟨c, head, first⟩ := Name.head?_join qualified (by simp)
  obtain ⟨d, end_char, final⟩ := Name.getLast?_join qualified (by simp)
  exact Line.enumOpening?_written ⟨c, head, Name.isBlank_of_continues first⟩
    ⟨d, end_char, Name.isBlank_of_continues final⟩
    (Name.not_mem_join qualified (by decide) (by decide))

/-- The opening line opens the enumeration, under its own name. -/
theorem line_openingLine
    (step : s.assign (Name.join (parts ++ [last])) (.enumeration (.named last)) = (t, .ok ())) :
    (standardWith config none anonymous literals).line number
        (openingLine (Name.join (parts ++ [last]))) s =
      ⟨standardWith config (some (Name.join (parts ++ [last]))) anonymous literals, t,
        .ok true⟩ := by
  have opening := enumOpening?_openingLine qualified
  have plain : (Name.splitLast (Name.join (parts ++ [last]))).2 = last :=
    Name.splitLast_join (fun part hp => qualified part (List.mem_append_left _ hp))
      (qualified last (by simp))
  have named : Line.isAnonymous last = false := isAnonymous_identifier (qualified last (by simp))
  have under : storedUnder anonymous (Name.join (parts ++ [last])) =
      (Name.join (parts ++ [last]), anonymous) := by
    simp [storedUnder, plain, named]
  have constant : Line.constant? (openingLine (Name.join (parts ++ [last]))) = none := by
    apply Option.eq_none_iff_forall_not_mem.2
    intro found hc
    have sign := Line.mem_of_constant? hc
    simp only [openingLine_eq, List.mem_append] at sign
    rcases sign with keyword | name | brace
    · revert keyword
      decide
    · exact Name.not_mem_join qualified (by decide) (by decide) name
    · revert brace
      decide
  have enums := lineEnums_of_opening opening (t := t) (by rw [under, plain]; exact step) number
  rw [under] at enums
  exact line_standardWith_of_enums config literals (Line.record?_of_enumOpening? opening)
    (Line.literal?_of_enumOpening? opening) enums (constants_line_of_none constant number t)

theorem identifiers_member (valid : m.Valid) :
    ∀ part ∈ parts ++ [last] ++ [m.name], Name.isIdentifier part = true := by
  intro part hp
  rcases List.mem_append.1 hp with hi | hi
  · exact qualified part hi
  · rw [List.mem_singleton.1 hi]
    exact valid.identifier

/-- An enumerator's line is a constant's, with its name inside the enumeration's. -/
theorem constant?_memberLine (valid : m.Valid) :
    Line.constant? (m.line (Name.join (parts ++ [last]))) =
      some (Name.join (parts ++ [last] ++ [m.name]), Text.ofInt m.value) := by
  have all := identifiers_member qualified valid
  rw [Member.line, ← Name.join_concat_eq (by simp)]
  exact Line.constant?_written (assignable_join all (by simp)) m.spaced (Text.ofInt_ne_nil _)
    fun c => Text.isBlank_of_mem_ofInt

theorem trim_memberLine (m : Member) :
    Text.trimStart (m.line (Name.join (parts ++ [last]))) = m.line (Name.join (parts ++ [last])) ∧
      (Text.trim (m.line (Name.join (parts ++ [last])))).getLast? = some ',' := by
  obtain ⟨c, head, first⟩ := Name.head?_join qualified (by simp)
  have front : (m.line (Name.join (parts ++ [last]))).head? = some c := by
    simp [Member.line, List.head?_append, head]
  have back : (m.line (Name.join (parts ++ [last]))).getLast? = some ',' := by
    simp [Member.line, List.getLast?_append]
  have start := Text.trimStart_of_head? front (Name.isBlank_of_continues first)
  refine ⟨start, ?_⟩
  rw [Text.trim, start, Text.trimEnd_of_getLast? back (by decide), back]

/-- An enumerator's line opens nothing, for it ends in a comma. -/
theorem enumOpening?_memberLine (m : Member) :
    Line.enumOpening? (m.line (Name.join (parts ++ [last]))) = none := by
  apply Option.eq_none_iff_forall_not_mem.2
  intro name ho
  have brace := Line.getLast?_of_enumOpening? ho
  rw [(trim_memberLine qualified m).2] at brace
  cases brace

theorem closesEnum_memberLine (m : Member) :
    Line.closesEnum (m.line (Name.join (parts ++ [last]))) = false := by
  obtain ⟨c, head, first⟩ := Name.head?_join qualified (by simp)
  have front : (m.line (Name.join (parts ++ [last]))).head? = some c := by
    simp [Member.line, List.head?_append, head]
  rw [Line.closesEnum, (trim_memberLine qualified m).1, front]
  have brace := Name.ne_of_continues first (d := '\x7d') (by decide)
  simpa using brace

/-- The enumeration reader adds an enumerator. -/
theorem lineEnums_memberLine (anonymous : Counters) (number : Nat) (valid : m.Valid)
    {before : List Member}
    (assigned : Scope.Assigned (.enumeration (enumerationOf last before)) (parts ++ [last]) s t)
    (after : Scope.Assigned (.enumeration (enumerationOf last (before ++ [m]))) (parts ++ [last])
      s t') :
    lineEnums (some (Name.join (parts ++ [last]))) anonymous number
        (m.line (Name.join (parts ++ [last]))) t =
      ⟨.enums (some (Name.join (parts ++ [last]))) anonymous, t', .ok true⟩ := by
  have constant := constant?_memberLine qualified valid
  have opening := enumOpening?_memberLine qualified m
  have closing := closesEnum_memberLine qualified m
  have integral : (Literal.decodeIn t (Text.ofInt m.value)).integral? = some m.value := by
    rw [Literal.decodeIn_ofInt valid.inRange]
    rfl
  have local_name : (Name.splitLast (Name.join (parts ++ [last] ++ [m.name]))).2 = m.name :=
    Name.splitLast_join qualified valid.identifier
  have path := Name.path_join qualified (by simp)
  have step : t.addEnumerator? (Name.join (parts ++ [last])) m.name m.value = some (.ok t') := by
    obtain ⟨u, modified, again⟩ := assigned.exists_modifyAt (enumerationOf last (before ++ [m]))
    obtain rfl : u = t' := by
      have one := again.assignAt_eq []
      rw [after.assignAt_eq []] at one
      exact (Prod.mk.inj one).1.symm
    have found : t.enumeration? (Name.join (parts ++ [last])) =
        some (enumerationOf last before) := by
      rw [Scope.enumeration?_eq, path]
      exact Scope.enumerationAt?_of_find? _ (assigned.find?_entry rfl)
    simp [Scope.addEnumerator?, found, insert_enumerationOf last before valid, path, modified]
  rw [← local_name] at step
  exact lineEnums_of_enumerator opening closing constant integral step number

/-- The constants reader stores the enumerator again, and changes nothing. -/
theorem constants_memberLine (number : Nat) (valid : m.Valid) {before : List Member}
    (assigned : Scope.Assigned (.enumeration (enumerationOf last (before ++ [m])))
      (parts ++ [last]) s t) :
    Reader.constants.line number (m.line (Name.join (parts ++ [last]))) t =
      ⟨.constants, t, .ok true⟩ := by
  have item : constantItem? (m.line (Name.join (parts ++ [last]))) t =
      some (Name.join (parts ++ [last] ++ [m.name]), .value (.int m.value)) := by
    simp only [constantItem?, constant?_memberLine qualified valid, Option.map_some,
      Literal.decodeIn_ofInt valid.inRange]
  have path : Name.path (Name.join (parts ++ [last] ++ [m.name])) =
      parts ++ [last] ++ [m.name] := Name.path_join (identifiers_member qualified valid) (by simp)
  have step : t.assign (Name.join (parts ++ [last] ++ [m.name])) (.value (.int m.value)) =
      (t, .ok ()) := by
    rw [Scope.assign, path]
    exact Scope.assignAt_enumerator_self (assigned.find?_entry rfl)
      (insert_enumerationOf_self last before valid)
  rw [Reader.line, lineConstants_eq, item]
  exact storedItem_of_ok step

/-- The lines of the members, one after the other: the scope is the one that assigning the
enumeration with all of them leaves. -/
theorem readLines_members (config : Config) (anonymous literals : Counters) (number : Nat)
    {before members : List Member} (valid : ∀ m ∈ members, m.Valid)
    (assigned : Scope.Assigned (.enumeration (enumerationOf last before)) (parts ++ [last]) s t)
    (after : Scope.Assigned (.enumeration (enumerationOf last (before ++ members)))
      (parts ++ [last]) s t') (rest : List Text) :
    (standardWith config (some (Name.join (parts ++ [last]))) anonymous literals).readLines number
        (members.map (Member.line (Name.join (parts ++ [last]))) ++ rest) t =
      (standardWith config (some (Name.join (parts ++ [last]))) anonymous literals).readLines
        (number + members.length) rest t' := by
  induction members generalizing before number t with
  | nil =>
    have same := assigned.assignAt_eq []
    rw [List.append_nil] at after
    rw [after.assignAt_eq []] at same
    obtain rfl : t' = t := (Prod.mk.inj same).1
    rfl
  | cons m members ih =>
    obtain ⟨here, others⟩ := List.forall_mem_cons.1 valid
    obtain ⟨u, -, next⟩ := assigned.exists_modifyAt (enumerationOf last (before ++ [m]))
    have enums := lineEnums_memberLine qualified anonymous number here assigned next
    have constants := constants_memberLine qualified number here next
    have constant := constant?_memberLine qualified here
    have step := line_standardWith_of_enums config literals
      (Line.record?_of_constant? constant) (Line.literal?_of_constant? constant) enums constants
    have accepted : ((standardWith config (some (Name.join (parts ++ [last]))) anonymous
        literals).line number (m.line (Name.join (parts ++ [last]))) t).result = .ok true := by
      rw [step]
    have count : number + (m :: members).length = number + 1 + members.length := by
      simp only [List.length_cons]
      omega
    rw [List.append_cons] at after
    rw [List.map_cons, List.cons_append, readLines_cons accepted, step, count]
    exact ih _ others next after

end Lines

/-! ## The whole enumeration -/

/-- Whether an enumeration can be assigned does not depend on its enumerators. -/
theorem assigned_of_free {name : Text} (h : (s.assign name (.enumeration e)).2 = .ok ())
    (e' : Enumeration) :
    Scope.Assigned (.enumeration e') (Name.path name) s (s.assign name (.enumeration e')).1 := by
  have assigned : Scope.Assigned (.enumeration e) (Name.path name) s
      (s.assign name (.enumeration e)).1 := Scope.assigned_path (Prod.ext rfl h)
  obtain ⟨t, -, other⟩ := assigned.exists_modifyAt e'
  have same : s.assign name (.enumeration e') = (t, .ok ()) := other.assignAt_eq name
  rw [same]
  exact other

/-- The lines of an enumeration are lines of a text. -/
theorem lines_blockLines (qualified : ∀ part ∈ parts ++ [last], Name.isIdentifier part = true)
    {members : List Member} (valid : ∀ m ∈ members, m.Valid) :
    Text.lines (Text.written (blockLines (Name.join (parts ++ [last])) members)) =
      blockLines (Name.join (parts ++ [last])) members := by
  have feed : '\n' ∉ Name.join (parts ++ [last]) :=
    Name.not_mem_join qualified (by decide) (by decide)
  refine Text.lines_written fun line hl => ?_
  simp only [blockLines, List.mem_cons, List.mem_append, List.mem_map, List.not_mem_nil,
    or_false] at hl
  rcases hl with rfl | ⟨m, hm, rfl⟩ | rfl
  · constructor
    · simp only [openingLine_eq, List.mem_append, not_or]
      exact ⟨by decide, feed, by decide⟩
    · have brace : " \x7b".toList.getLast? = some '\x7b' := rfl
      rw [openingLine_eq, List.getLast?_append, List.getLast?_append, brace, Option.some_or,
        Option.some_or]
      decide
  · have own : '\n' ∉ m.name := Name.not_mem_of_isIdentifier (valid m hm).identifier (by decide)
    have value : '\n' ∉ Text.ofInt m.value := by
      intro digits
      have solid := Text.isBlank_of_mem_ofInt digits
      revert solid
      decide
    have sign : '\n' ∉ Line.assigns m.spaced := by cases m.spaced <;> decide
    constructor
    · simp only [Member.line, List.mem_append, not_or]
      exact ⟨⟨feed, by decide, own⟩, sign, value, by decide⟩
    · simp [Member.line, List.getLast?_append]
  · decide

/-- An enumeration that can be assigned, read from its lines, leaves the scope that a single
assignment of it with all its enumerators leaves, and the reader as it was: the enumeration is
closed. The line of each enumerator is stored by the enumeration reader, and to store it again
changes nothing. -/
theorem readInto_block {members : List Member}
    (qualified : ∀ part ∈ parts ++ [last], Name.isIdentifier part = true)
    (valid : ∀ m ∈ members, m.Valid)
    (free : (s.assign (Name.join (parts ++ [last])) (.enumeration e)).2 = .ok ()) :
    let name := Name.join (parts ++ [last])
    let after := fun members => (s.assign name (.enumeration (enumerationOf last members))).1
    (standard config).readInto (Text.written (blockLines name members)) s =
        ⟨standard config, after members, .ok ()⟩ ∧
      s.assign name (.enumeration (enumerationOf last members)) = (after members, .ok ()) ∧
      ∀ before m later, members = before ++ m :: later → ∀ number,
        (Reader.enums (some name) .empty).line number (m.line name) (after before) =
            ⟨.enums (some name) .empty, after (before ++ [m]), .ok true⟩ ∧
          Reader.constants.line number (m.line name) (after (before ++ [m])) =
            ⟨.constants, after (before ++ [m]), .ok true⟩ := by
  intro name after
  have path : Name.path name = parts ++ [last] := Name.path_join qualified (by simp)
  have assigned (ms : List Member) :
      Scope.Assigned (.enumeration (enumerationOf last ms)) (parts ++ [last]) s (after ms) := by
    rw [← path]
    exact assigned_of_free free _
  have stored (ms : List Member) :
      s.assign name (.enumeration (enumerationOf last ms)) = (after ms, .ok ()) := by
    rw [Scope.assign, path]
    exact (assigned ms).assignAt_eq name
  refine ⟨?_, stored members, ?_⟩
  · have opened : (standardWith config none .empty .empty).line 1 (openingLine name) s =
        ⟨standardWith config (some name) .empty .empty, after [], .ok true⟩ :=
      line_openingLine qualified (stored [])
    have accepted : ((standardWith config none .empty .empty).line 1 (openingLine name) s).result =
        .ok true := by rw [opened]
    have between := readLines_members qualified config .empty .empty (1 + 1) valid (assigned [])
      (assigned members) [closingLine]
    have closed := line_closingLine config .empty .empty (1 + 1 + members.length) (after members)
      name
    have closes : ((standardWith config (some name) .empty .empty).line (1 + 1 + members.length)
        closingLine (after members)).result = .ok true := by rw [closed]
    rw [readInto, lines_blockLines qualified valid, blockLines,
      show standard config = standardWith config none .empty .empty from rfl,
      readLines_cons accepted, opened]
    rw [between, readLines_cons closes, closed]
    rfl
  · rintro before m later rfl number
    have here : m.Valid := valid m (by simp)
    exact ⟨lineEnums_memberLine qualified .empty number here (assigned before)
      (assigned (before ++ [m])), constants_memberLine qualified number here
      (assigned (before ++ [m]))⟩

/-- Enumerators in both forms, one of them twice. -/
def colorMembers : List Member :=
  [⟨"RED".toList, 0, true⟩, ⟨"GREEN".toList, -1, false⟩, ⟨"RED".toList, 2, true⟩]

theorem readInto_block_color :
    let name := Name.join ["ns".toList, "Color".toList]
    (standard .default).readInto (Text.written (blockLines name colorMembers)) .empty =
      ⟨standard .default, .ofList [("ns".toList, .scope (.ofList [("Color".toList,
        .enumeration ⟨"Color".toList, .ofList [("RED".toList, 2), ("GREEN".toList, -1)]⟩)]))],
        .ok ()⟩ := by
  have qualified : ∀ part ∈ ["ns".toList] ++ ["Color".toList], Name.isIdentifier part = true := by
    decide
  have valid : ∀ m ∈ colorMembers, m.Valid := by
    intro m hm
    simp only [colorMembers, List.mem_cons, List.not_mem_nil, or_false] at hm
    rcases hm with rfl | rfl | rfl <;> exact ⟨by decide, by decide⟩
  have free : (Scope.assign .empty (Name.join (["ns".toList] ++ ["Color".toList]))
      (.enumeration (.named []))).2 = .ok () := rfl
  exact (readInto_block qualified valid free).1

end ConstantDump.Reader
