import ConstantDump.Literal.Decode
import ConstantDump.Proofs.Bracket.Spaced
import ConstantDump.Proofs.Literal.Parenthesis
import ConstantDump.Proofs.Literal.Scalar

/-!
Calls of records. A call is split at a parenthesis that is found from the right, and the
quotes around an argument do not hide its parentheses from that scan.

* `decodeIn_callText`: a call of a record builds its struct exactly when the parentheses
  of the arguments match one another, those between quotes included; otherwise the text
  is kept, or is a call of some longer name;
* `exists_callText_ne_struct`: one quoted parenthesis is enough to lose the struct.
-/

namespace ConstantDump.Literal

def callText (typeName : Text) (arguments : List Text) : Text :=
  typeName ++ '(' :: Text.join Value.comma arguments ++ [')']

/-- Arguments that are one piece each are the pieces between the parentheses. -/
theorem split_arguments {arguments : List Text}
    (h : ∀ a ∈ arguments, Bracket.split ',' a = some [a]) :
    Bracket.split ',' (Text.join Value.comma arguments) = some arguments :=
  Bracket.split_join (by decide) (by decide) (by decide) h

theorem getLast?_callText (typeName : Text) (arguments : List Text) :
    (callText typeName arguments).getLast? = some ')' :=
  List.getLast?_concat ..

/-- A call is no array: the parenthesis at its start, if there is one, is closed before
the end of the type name. -/
theorem elements?_callText {typeName : Text} (hne : typeName ≠ [])
    (hq : ∀ c ∈ typeName, Bracket.isQuote c = false)
    (hb : typeName.count '(' = typeName.count ')') (arguments : List Text) :
    elements? (callText typeName arguments) = none := by
  apply Option.eq_none_iff_forall_not_mem.2
  intro elements he
  obtain ⟨inner, hi, hs⟩ := Option.bind_eq_some_iff.1 he
  obtain ⟨rest, hp, hsuffix⟩ := Option.bind_eq_some_iff.1 hi
  have hraw : callText typeName arguments = '(' :: (inner ++ [')']) := by
    rw [Text.isPrefixOf?_eq_some_iff.1 hp, Text.isSuffixOf?_eq_some_iff.1 hsuffix]
    rfl
  obtain ⟨c, name, rfl⟩ := List.exists_cons_of_ne_nil hne
  obtain ⟨rfl, hinner⟩ :
      c = '(' ∧ inner = name ++ '(' :: Text.join Value.comma arguments := by
    simp only [callText, List.cons_append, List.cons.injEq] at hraw
    exact ⟨hraw.1, (List.append_cancel_right hraw.2).symm⟩
  have hblank : Text.isAllBlank inner = false := by
    have hparen : Text.isBlank '(' = false := by decide
    simp [hinner, Text.isAllBlank, hparen]
  unfold Bracket.split at hs
  rw [hblank] at hs
  obtain ⟨pieces, hpieces, -⟩ := Option.map_eq_some_iff.1 hs
  have hrun := Bracket.after?_of_piecesFrom hpieces
  rw [hinner, Bracket.after?_append] at hrun
  obtain ⟨s, hname, -⟩ := Option.bind_eq_some_iff.1 hrun
  obtain ⟨closers, -, hcount⟩ := Bracket.count_paren_of_after?
    (fun d hd => hq d (List.mem_cons_of_mem _ hd)) hname
  simp at hb hcount
  omega

/-- A call is read as one, or not at all. -/
theorem ofText_callText {typeName : Text} (hne : typeName ≠ [])
    (hq : ∀ c ∈ typeName, Bracket.isQuote c = false)
    (hb : typeName.count '(' = typeName.count ')') (arguments : List Text) :
    Form.ofText (callText typeName arguments) =
      (callForm? (callText typeName arguments)).getD .verbatim := by
  simp [Form.ofText, scalar?_eq_none (getLast?_callText ..), elements?_callText hne hq hb]

/-- The call splits behind its type name exactly when the parentheses of the arguments
match one another. -/
theorem call?_callText_iff {typeName : Text} {arguments : List Text} (hne : typeName ≠ [])
    (hb : typeName.count '(' = typeName.count ')') :
    call? (callText typeName arguments) = some (typeName, Text.join Value.comma arguments) ↔
      ParenthesesMatch (Text.join Value.comma arguments) := by
  rw [call?_eq_some_iff]
  exact ⟨fun h => h.2.2.1, fun h => ⟨rfl, hne, h, hb⟩⟩

/-- A call whose parentheses match is read as that call. -/
theorem ofText_callText_of_match {typeName : Text} {arguments : List Text} (hne : typeName ≠ [])
    (hq : ∀ c ∈ typeName, Bracket.isQuote c = false)
    (hb : typeName.count '(' = typeName.count ')')
    (ha : ∀ a ∈ arguments, Bracket.split ',' a = some [a])
    (hm : ParenthesesMatch (Text.join Value.comma arguments)) :
    Form.ofText (callText typeName arguments) = .call typeName arguments := by
  rw [ofText_callText hne hq hb, callForm?, (call?_callText_iff hne hb).2 hm]
  simp [split_arguments ha]

/-- Where it splits elsewhere, it does so behind its own parenthesis. -/
theorem isPrefix_of_call?_callText {typeName longer parameters : Text} {arguments : List Text}
    (hb : typeName.count '(' = typeName.count ')')
    (hm : ¬ ParenthesesMatch (Text.join Value.comma arguments))
    (h : call? (callText typeName arguments) = some (longer, parameters)) :
    typeName ++ ['('] <+: longer := by
  obtain ⟨hraw, -, hmatch, hcount⟩ := call?_eq_some_iff.1 h
  have heq : typeName ++ '(' :: Text.join Value.comma arguments = longer ++ '(' :: parameters :=
    List.append_cancel_right hraw
  rcases List.append_eq_append_iff.1 heq with ⟨u, hlonger, hu⟩ | ⟨u, hname, hu⟩
  · cases u with
    | nil =>
      simp only [List.nil_append, List.cons.injEq, true_and] at hu
      exact absurd (hu ▸ hmatch) hm
    | cons c u =>
      simp only [List.cons_append, List.cons.injEq] at hu
      rw [hlonger, ← hu.1]
      exact ⟨u, by simp⟩
  · cases u with
    | nil =>
      simp only [List.nil_append, List.cons.injEq, true_and] at hu
      exact absurd (hu ▸ hmatch) hm
    | cons c u =>
      -- The longer parameters would match, and so would their end.
      simp only [List.cons_append, List.cons.injEq] at hu
      obtain ⟨rfl, hu⟩ := hu
      refine absurd ⟨?_, fun v hv => hmatch.2 v ?_⟩ hm
      · have hall := hmatch.1
        rw [hname] at hb
        simp [hu] at hb hall
        omega
      · rw [hu]
        exact hv.trans ((List.suffix_cons ..).trans (List.suffix_append ..))

/-- A record that gets one argument a field builds its struct. -/
theorem construct_record {s : Scope} {typeName : Text} {r : Record} {arguments : List Value}
    (hr : typeOf? (.inScope s) typeName = some (.record r))
    (hn : arguments.length = r.layout.fields.length) :
    construct (.inScope s) typeName arguments = .struct r.layout arguments := by
  have built : r.construct arguments = .ok (.struct r.layout arguments) := if_pos hn
  simp only [construct, hr, Constructor.call, built]
  rfl

/-- The call of a record with one argument a field, each of them one piece. It is read as
that call exactly when the parentheses of the arguments match one another, and then it
builds the struct of the arguments' values. When they do not match, the text is kept, or
is a call of a longer name that begins with this one and its parenthesis. -/
theorem decodeIn_callText {s : Scope} {r : Record} {typeName : Text} {arguments : List Text}
    (hne : typeName ≠ []) (hq : ∀ c ∈ typeName, Bracket.isQuote c = false)
    (hb : typeName.count '(' = typeName.count ')')
    (hr : typeOf? (.inScope s) typeName = some (.record r))
    (hn : arguments.length = r.layout.fields.length)
    (ha : ∀ a ∈ arguments, Bracket.split ',' a = some [a]) :
    (Form.ofText (callText typeName arguments) = .call typeName arguments ↔
      ParenthesesMatch (Text.join Value.comma arguments)) ∧
    (ParenthesesMatch (Text.join Value.comma arguments) →
      decodeIn s (callText typeName arguments) =
        .struct r.layout (arguments.map (decodeIn s))) ∧
    (¬ ParenthesesMatch (Text.join Value.comma arguments) →
      decodeIn s (callText typeName arguments) = .text (callText typeName arguments) ∨
      ∃ (longer : Text) (others : List Text), typeName ++ ['('] <+: longer ∧
        decodeIn s (callText typeName arguments) =
          construct (.inScope s) longer (others.map (decodeIn s))) := by
  have form := ofText_callText hne hq hb arguments
  have matched := ofText_callText_of_match hne hq hb ha
  refine ⟨⟨fun h => ?_, matched⟩, fun hm => ?_, fun hm => ?_⟩
  · rw [form] at h
    cases hc : callForm? (callText typeName arguments) with
    | none => simp [hc] at h
    | some f =>
      obtain ⟨⟨name, parameters⟩, hcall, hf⟩ := Option.bind_eq_some_iff.1 hc
      obtain ⟨pieces, -, hp⟩ := Option.bind_eq_some_iff.1 hf
      cases hp
      obtain ⟨rfl, -⟩ : name = typeName ∧ pieces = arguments := by simpa [hc] using h
      obtain ⟨hraw, -, hmatch, -⟩ := call?_eq_some_iff.1 hcall
      obtain rfl : Text.join Value.comma arguments = parameters := by
        simpa [callText] using hraw
      exact hmatch
  · rw [decodeIn, decode_eq, matched hm]
    exact construct_record hr (by simpa using hn)
  · rw [decodeIn, decode_eq, form]
    cases hc : callForm? (callText typeName arguments) with
    | none => exact .inl rfl
    | some f =>
      obtain ⟨⟨longer, parameters⟩, hcall, hf⟩ := Option.bind_eq_some_iff.1 hc
      obtain ⟨others, -, hp⟩ := Option.bind_eq_some_iff.1 hf
      cases hp
      exact .inr ⟨longer, others, isPrefix_of_call?_callText hb hm hcall, rfl⟩

def box : Record := .ofFieldList "Box".toList "item, note".toList

def boxes : Scope := .ofList [("Box".toList, .record box .empty)]

theorem decodeIn_callText_box :
    typeOf? (.inScope boxes) "Box<int>".toList = some (.record box) ∧
    ParenthesesMatch (Text.join Value.comma ["\"(,)\"".toList, "'['".toList]) ∧
    decodeIn boxes "Box<int>(\"(,)\", '[')".toList =
      .struct box.layout [.str "(,)".toList, .char '['] := by
  have hr : typeOf? (.inScope boxes) "Box<int>".toList = some (.record box) := rfl
  have hm : ParenthesesMatch (Text.join Value.comma ["\"(,)\"".toList, "'['".toList]) := by
    decide +kernel
  have unquoted : ∀ c ∈ "Box<int>".toList, Bracket.isQuote c = false := by
    simp [Bracket.isQuote]
  have built := (decodeIn_callText (by decide +kernel) unquoted (by decide +kernel) hr
    (by decide +kernel) (by decide +kernel)).2.1 hm
  have values : ["\"(,)\"".toList, "'['".toList].map (decodeIn boxes) =
      [.str "(,)".toList, .char '['] := by decide +kernel
  rw [values] at built
  exact ⟨hr, hm, built⟩

/-- One quoted parenthesis is enough to lose the struct: `Box("(", 1)` is kept as text. -/
theorem exists_callText_ne_struct :
    ¬ ∀ (s : Scope) (r : Record) (typeName : Text) (arguments : List Text), typeName ≠ [] →
      (∀ c ∈ typeName, Bracket.isQuote c = false) → ParenthesesMatch typeName →
      s.record? typeName = some r → arguments.length = r.layout.fields.length →
      (∀ a ∈ arguments, Bracket.split ',' a = some [a]) →
      decodeIn s (callText typeName arguments) =
        .struct r.layout (arguments.map (decodeIn s)) := by
  intro h
  have unquoted : ∀ c ∈ "Box".toList, Bracket.isQuote c = false := by
    simp [Bracket.isQuote]
  have built := h boxes box "Box".toList ["\"(\"".toList, "1".toList] (by decide +kernel)
    unquoted (by decide +kernel) (by decide +kernel) (by decide +kernel) (by decide +kernel)
  have kept : decodeIn boxes (callText "Box".toList ["\"(\"".toList, "1".toList]) =
      .text "Box(\"(\", 1)".toList := by decide +kernel
  rw [kept] at built
  cases built

end ConstantDump.Literal
