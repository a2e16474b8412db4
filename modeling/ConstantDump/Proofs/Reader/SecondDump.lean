import ConstantDump.Proofs.Reader.Write
import ConstantDump.SourceData

/-!
Two dumps, one after the other into the same data. The reader of the second one counts from
zero again, while the scope still has what the first one numbered. Main statement,
`load_load_literals`: where no number is given twice, nothing numbered is replaced, and the
literals of both dumps are there in the end.
-/

namespace ConstantDump.Reader

namespace Write

/-- What decides about the place of something numbered: its scope, its name in the scope and
its number. -/
def key? (w : Write) : Option (Text × Text × Nat) :=
  w.numbered?.map fun (name, index) =>
    (Counters.enclosing name, Name.withoutMarkers (Name.splitLast name).2, index)

def Traceless (w : Write) : Prop := ∀ found ∈ w.numbered?, Name.Traceless found.1

instance (w : Write) : Decidable w.Traceless := by
  unfold Traceless
  infer_instance

def isLiteral : Write → Bool
  | .literal _ _ => true
  | _ => false

def isNumbered (w : Write) : Bool := w.numbered?.isSome

theorem isNumbered_of_isLiteral {w : Write} (h : w.isLiteral = true) : w.isNumbered = true := by
  cases w <;> cases h
  rfl

theorem place_of_numbered? {w : Write} {name : Text} {index : Nat}
    (h : w.numbered? = some (name, index)) : w.place = Name.path (Name.numbered name index) := by
  cases w <;> cases h <;> rfl

/-- Numbered things have one place just when they have one key. -/
theorem place_eq_iff {w w' : Write} (hw : w.isNumbered = true) (hw' : w'.isNumbered = true)
    (traceless : w.Traceless) (traceless' : w'.Traceless) :
    w.place = w'.place ↔ w.key? = w'.key? := by
  obtain ⟨⟨name, m⟩, hn⟩ := Option.isSome_iff_exists.1 hw
  obtain ⟨⟨other, n⟩, ho⟩ := Option.isSome_iff_exists.1 hw'
  rw [place_of_numbered? hn, place_of_numbered? ho,
    Name.path_numbered_eq_iff (traceless _ hn) (traceless' _ ho)]
  simp [key?, hn, ho]

end Write

def dumpWrites (dump : Text) : List Write := Tally.start.writesAll (Text.lines dump)

/-- A literal of a dump that is read into a scope: the name under which it is stored, and its
value. -/
inductive LiteralRead (config : Config) (dump : Text) (s : Scope) : Text → Value → Prop
  | at_line {before after : List Text} {line name raw : Text}
      (lines : Text.lines dump = before ++ line :: after)
      (literal : Line.literal? line = some (name, raw)) :
      LiteralRead config dump s
        (Name.numbered name ((literalNames before).countP fun other =>
          Counters.enclosing other = Counters.enclosing name))
        (Literal.decodeIn ((standard config).readLines 1 before s).scope raw)

variable {config : Config} {dump : Text} {s s' : Scope} {reader : Reader}

/-- In one dump, no literal is stored where another one has been. -/
theorem place_ne_of_later {tally : Tally} {line name raw : Text} {later : List Text} {w : Write}
    (literal : Line.literal? line = some (name, raw)) (traceless : Name.Traceless name)
    (hw : w ∈ (tally.next line).writesAll later) (hl : w.isLiteral = true)
    (hw' : w.Traceless) :
    w.place ≠ Name.path (Name.numbered name (tally.literals.count name)) := by
  intro same
  cases w with
  | literal other index =>
    obtain ⟨scope, -, rfl⟩ := (Name.path_numbered_eq_iff (hw' (other, index) rfl) traceless).1 same
    have above := Tally.count_le_of_mem_writesAll hw
    have counted : (tally.next line).literals = (tally.literals.number name).2 := by
      rw [Tally.next, literalCounters, literal]
    have together : tally.literals.count other = tally.literals.count name := by
      rw [Counters.count, scope, Counters.count]
    rw [counted, Counters.count_number, if_pos scope.symm, together] at above
    omega
  | _ => cases hl

/-- A literal is there after its line, and nothing that follows in its dump is numbered like
it. -/
theorem LiteralRead.stored {name : Text} {value : Value}
    (h : LiteralRead config dump s name value)
    (run : (standard config).readInto dump s = ⟨reader, s', .ok ()⟩)
    (traceless : ∀ w ∈ dumpWrites dump, w.Traceless) :
    ∃ w ∈ dumpWrites dump, w.isLiteral = true ∧ w.storedName = name ∧
      ((∀ w' ∈ dumpWrites dump, w'.Covers w.place → w'.isLiteral = true ∧ w'.place = w.place) →
        s'.value? name = some value) := by
  obtain ⟨lines, literal⟩ := h
  rename_i before later line name raw
  rw [readInto, lines] at run
  obtain ⟨mid, t, first, run⟩ := readLines_append_ok run
  obtain ⟨accepted, rest⟩ := readLines_cons_ok run
  obtain ⟨opened, anonymous, literals, rfl, tally, -⟩ := readLines_writes [] first
  have step := line_literal literal accepted
  have number : literals.count name = (literalNames before).countP fun other =>
      Counters.enclosing other = Counters.enclosing name := by
    rw [← Tally.count_after_start]
    exact congrArg (fun tally : Tally => tally.literals.count name) tally.symm
  have all : dumpWrites dump = Tally.start.writesAll before ++
      ((tallyOf opened anonymous literals).writes line ++
        ((tallyOf opened anonymous literals).next line).writesAll later) := by
    rw [dumpWrites, lines, Tally.writesAll_append, Tally.writesAll]
    exact congrArg (_ ++ ·) (congrArg (fun tally : Tally => tally.writes line ++
      (tally.next line).writesAll later) tally)
  have found : Write.literal name (literals.count name) ∈ dumpWrites dump := by
    simp [all, Tally.writes, literal, tallyOf]
  have here : Name.Traceless name := traceless _ found (name, literals.count name) rfl
  rw [first, ← number]
  refine ⟨_, found, rfl, rfl, fun spared => ?_⟩
  obtain ⟨opened', anonymous', literals', state, next, -⟩ := line_writes [] accepted
  rw [state] at rest
  obtain ⟨-, -, -, -, -, left⟩ := readLines_writes
    (Name.path (Name.numbered name (literals.count name))) rest
  rw [Scope.value?_eq, left]
  · exact (Scope.assigned_path step).valueAt?_self (parentEnumeration?_of_numbered here step)
  · intro w hw covers
    rw [← next] at hw
    have inside : w ∈ dumpWrites dump := by simp [all, hw]
    obtain ⟨hl, same⟩ := spared w inside covers
    exact place_ne_of_later literal here hw hl (traceless w inside) same

theorem readInto_of_load {data data' : SourceData} {macros : OrderedMap Text}
    (h : data.load dump macros config = (data', .ok ())) :
    ∃ reader, (standard config).readInto dump data.scope = ⟨reader, data'.scope, .ok ()⟩ := by
  unfold SourceData.load at h
  cases hr : ((standard config).readInto dump data.scope).result with
  | error error =>
    simp only [hr] at h
    cases h
  | ok _ =>
    simp only [hr] at h
    cases h
    exact ⟨_, by rw [← hr]⟩

theorem load_of_isOk {data : SourceData} {macros : OrderedMap Text}
    (h : (data.load dump macros config).2.isOk = true) :
    data.load dump macros config = ((data.load dump macros config).1, .ok ()) :=
  Prod.ext rfl (ok_of_isOk h)

/-- Where no number is given in both dumps, and only literals are stored where literals are,
nothing numbered is replaced by the second dump, and the literals of both are there. -/
theorem load_load_literals {data data₁ data₂ : SourceData} {dump₁ dump₂ : Text}
    {macros₁ macros₂ : OrderedMap Text} {config₁ config₂ : Config}
    (first : data.load dump₁ macros₁ config₁ = (data₁, .ok ()))
    (second : data₁.load dump₂ macros₂ config₂ = (data₂, .ok ()))
    (apart : ∀ w ∈ dumpWrites dump₁, ∀ w' ∈ dumpWrites dump₂, w.isNumbered = true →
      w.key? ≠ w'.key?)
    (traceless : ∀ w ∈ dumpWrites dump₁ ++ dumpWrites dump₂, w.Traceless)
    (spared : ∀ l ∈ dumpWrites dump₁ ++ dumpWrites dump₂, l.isLiteral = true →
      ∀ w ∈ dumpWrites dump₁ ++ dumpWrites dump₂, w.Covers l.place →
        w.isLiteral = true ∧ w.place = l.place) :
    (∀ w ∈ dumpWrites dump₁, ∀ w' ∈ dumpWrites dump₂, w.isNumbered = true →
        w'.isNumbered = true → w.place ≠ w'.place) ∧
      (∀ name value, LiteralRead config₁ dump₁ data.scope name value →
        data₂.scope.value? name = some value) ∧
      (∀ name value, LiteralRead config₂ dump₂ data₁.scope name value →
        data₂.scope.value? name = some value) := by
  obtain ⟨reader₁, run₁⟩ := readInto_of_load first
  obtain ⟨reader₂, run₂⟩ := readInto_of_load second
  have traceless₁ : ∀ w ∈ dumpWrites dump₁, w.Traceless := fun w hw =>
    traceless w (List.mem_append_left _ hw)
  have traceless₂ : ∀ w ∈ dumpWrites dump₂, w.Traceless := fun w hw =>
    traceless w (List.mem_append_right _ hw)
  have places : ∀ w ∈ dumpWrites dump₁, ∀ w' ∈ dumpWrites dump₂, w.isNumbered = true →
      w'.isNumbered = true → w.place ≠ w'.place := by
    intro w hw w' hw' numbered numbered' same
    exact apart w hw w' hw' numbered ((Write.place_eq_iff numbered numbered'
      (traceless₁ w hw) (traceless₂ w' hw')).1 same)
  refine ⟨places, ?_, ?_⟩
  · intro name value literal
    obtain ⟨w, hw, hl, rfl, stays⟩ := literal.stored run₁ traceless₁
    have after_first := stays fun w' hw' =>
      spared w (List.mem_append_left _ hw) hl w' (List.mem_append_left _ hw')
    obtain ⟨-, -, -, -, -, left⟩ := readLines_writes w.place run₂
    rw [← after_first, Scope.value?_eq, Scope.value?_eq]
    refine left fun w' hw' covers => ?_
    obtain ⟨hl', same⟩ := spared w (List.mem_append_left _ hw) hl w'
      (List.mem_append_right _ hw') covers
    exact places w hw w' hw' (Write.isNumbered_of_isLiteral hl)
      (Write.isNumbered_of_isLiteral hl') same.symm
  · intro name value literal
    obtain ⟨w, hw, hl, rfl, stays⟩ := literal.stored run₂ traceless₂
    exact stays fun w' hw' =>
      spared w (List.mem_append_right _ hw) hl w' (List.mem_append_right _ hw')

/-- A dump with two literals, and one with a literal and an anonymous enumeration elsewhere. -/
def countedDump : Text := "#literal (literal):=1\n#literal (literal):=2\n".toList

def countedApart : Text := "#literal ns::(literal):=3\nenum (anonymous enum) \x7b\n\x7d\n".toList

theorem load_load_literals_counted :
    ∃ data₁ data₂, SourceData.empty.load countedDump .empty .default = (data₁, .ok ()) ∧
      data₁.load countedApart .empty .default = (data₂, .ok ()) ∧
      data₂.scope.value? (Name.numbered "(literal)".toList 0) = some (.int 1) := by
  have ok₁ : (SourceData.empty.load countedDump .empty .default).2.isOk = true := by
    decide +kernel
  have ok₂ : ((SourceData.empty.load countedDump .empty .default).1.load countedApart .empty
      .default).2.isOk = true := by decide +kernel
  have first := load_of_isOk ok₁
  have second := load_of_isOk ok₂
  obtain ⟨-, kept, -⟩ := load_load_literals first second (by decide +kernel)
    (by decide +kernel) (by decide +kernel)
  have lines : Text.lines countedDump = [] ++ "#literal (literal):=1".toList ::
      ["#literal (literal):=2".toList] := by decide +kernel
  have literal : Line.literal? "#literal (literal):=1".toList =
      some ("(literal)".toList, "1".toList) := by decide +kernel
  have one (t : Scope) : Literal.decodeIn t "1".toList = .int 1 := by
    rw [Literal.decodeIn, Literal.decode_eq]
    rfl
  have read : LiteralRead .default countedDump SourceData.empty.scope _ _ := .at_line lines literal
  rw [one] at read
  exact ⟨_, _, first, second, kept _ _ read⟩

/-- The second dump counts from zero again: its literal takes the place of the first dump's. -/
theorem load_load_replaces :
    let first := SourceData.empty.load "#literal (literal):=1".toList .empty .default
    let second := first.1.load "#literal (literal):=2".toList .empty .default
    first.2.isOk = true ∧ second.2.isOk = true ∧
      first.1.scope = .ofList [("(literal)\x600".toList, .value (.int 1))] ∧
      second.1.scope = .ofList [("(literal)\x600".toList, .value (.int 2))] := by
  decide +kernel

end ConstantDump.Reader
