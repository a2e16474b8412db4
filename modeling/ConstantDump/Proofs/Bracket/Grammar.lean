import ConstantDump.Proofs.Bracket.Offsets

/-!
The grammar of balanced texts. The scan gets through exactly the texts that are derived from

`B ::= empty | x B | Q B | ( B ) B | [ B ] B | { B } B | < B > B`

where `x` is no mark and `Q` is what stands between two quotes, with the quotes. It reports the
separators among the `x` of the outermost `B`.

* `Passes`: what the scan does on its way through a text, whatever follows it;
* `passes_derived`: it gets through a derived text and is where it was;
* `unwinds_of_after?`: what is left of a text when the scan gets through it closes what is open,
  with derived texts before, between and behind the closing brackets;
* `isBalanced_iff_derived`: the texts and the offsets that the grammar derives are those of the
  scan.
-/

namespace ConstantDump.Bracket

/-! ## The grammar -/

inductive Kind
  | round
  | square
  | curly
  | angle
  deriving DecidableEq, Repr

def Kind.opening : Kind → Char
  | .round => '('
  | .square => '['
  | .curly => '{'
  | .angle => '<'

def Kind.closing : Kind → Char
  | .round => ')'
  | .square => ']'
  | .curly => '}'
  | .angle => '>'

def Kind.enclose (kind : Kind) (inside : Text) : Text :=
  kind.opening :: (inside ++ [kind.closing])

/-- What can stand between two quotes. -/
inductive QuotedItem (quote : Char)
  /-- Any character behind a backslash. -/
  | hidden (c : Char)
  | shown (c : Char) (visible : c ≠ '\\') (other : c ≠ quote)

def QuotedItem.text {quote : Char} : QuotedItem quote → Text
  | .hidden c => ['\\', c]
  | .shown c _ _ => [c]

structure QuotedRun where
  quote : Char
  is_quote : quote = '"' ∨ quote = '\''
  items : List (QuotedItem quote)

def QuotedRun.text (run : QuotedRun) : Text :=
  run.quote :: (run.items.flatMap QuotedItem.text ++ [run.quote])

/-- The ways to derive a text. -/
inductive Derivation
  | empty
  | plain (c : Char) (unmarked : c ∉ marks) (rest : Derivation)
  | quoted (run : QuotedRun) (rest : Derivation)
  | enclosed (kind : Kind) (inside rest : Derivation)

namespace Derivation

def text : Derivation → Text
  | empty => []
  | plain c _ rest => c :: rest.text
  | quoted run rest => run.text ++ rest.text
  | enclosed kind inside rest => kind.enclose inside.text ++ rest.text

/-- The offsets of the separators that are derived at the outermost level, outside quotes. -/
def offsets (separator : Option UInt8) (offset : Nat) : Derivation → List Nat
  | empty => []
  | plain c _ rest =>
    offsetsIn separator offset (Utf8.encode [c]) ++
      rest.offsets separator (offset + Utf8.size [c])
  | quoted run rest => rest.offsets separator (offset + Utf8.size run.text)
  | enclosed kind inside rest =>
    rest.offsets separator (offset + Utf8.size (kind.enclose inside.text))

end Derivation

theorem isPlain_iff_notMem {c : Char} : isPlain c = true ↔ c ∉ marks := by
  constructor
  · intro plain mem
    have marked : marks.any isPlain = false := by decide
    exact List.any_eq_false.1 marked c mem plain
  · intro unmarked
    by_contra other
    exact unmarked (mem_marks (by simpa using other))

theorem closer?_eq_some_iff {c closer : Char} :
    closer? c = some closer ↔ ∃ kind : Kind, kind.opening = c ∧ kind.closing = closer := by
  constructor
  · intro h
    unfold closer? at h
    split at h <;> cases h
    · exact ⟨.round, rfl, rfl⟩
    · exact ⟨.square, rfl, rfl⟩
    · exact ⟨.curly, rfl, rfl⟩
    · exact ⟨.angle, rfl, rfl⟩
  · rintro ⟨kind, rfl, rfl⟩
    cases kind <;> rfl

theorem isCloser_closing (kind : Kind) : isCloser kind.closing = true := by
  cases kind <;> rfl

/-! ## Through a derived text -/

/-- On its way through a text the scan comes from one state to another and reports some offsets,
whatever follows the text. -/
def Passes (separator : Option UInt8) (s : State) (offset : Nat) (t : Text) (s' : State)
    (found : List Nat) : Prop :=
  ∀ rest, offsetsFrom separator s offset (Utf8.encode (t ++ rest)) =
    (offsetsFrom separator s' (offset + Utf8.size t) (Utf8.encode rest)).map (found ++ ·)

variable {separator : Option UInt8} {s s₁ s₂ : State} {offset : Nat}

theorem Passes.nil (s : State) : Passes separator s offset [] s [] := by
  intro rest
  simp [Utf8.size]

theorem Passes.append {t u : Text} {before behind : List Nat}
    (first : Passes separator s offset t s₁ before)
    (second : Passes separator s₁ (offset + Utf8.size t) u s₂ behind) :
    Passes separator s offset (t ++ u) s₂ (before ++ behind) := by
  intro rest
  rw [List.append_assoc, first, second, Option.map_map, Utf8.size_append, Nat.add_assoc]
  simp [Function.comp_def]

/-- A character that is no mark separates outside brackets only. -/
theorem passes_plain {c : Char} (unmarked : c ∉ marks) (closers : List Char) :
    Passes separator (.plain closers) offset [c] (.plain closers)
      (if closers = [] then offsetsIn separator offset (Utf8.encode [c]) else []) := by
  intro rest
  have plain : isPlain c = true := isPlain_iff_notMem.2 unmarked
  have next : (State.plain closers).next? c = some (.plain closers) :=
    next?_eq_some_iff.2 (.passes closers plain)
  rw [List.singleton_append, offsetsFrom_cons (s := .plain closers) trivial, next]
  simp [plain, State.start]

/-- One character that is not outside, or a mark: no separator. -/
theorem passes_step {c : Char} (quoted : s.WellQuoted) (step : Step s c s₁)
    (inside : ¬ (s = .start ∧ isPlain c = true)) :
    Passes separator s offset [c] s₁ [] := by
  intro rest
  rw [List.singleton_append, offsetsFrom_cons quoted, next?_eq_some_iff.2 step, if_neg inside]
  rfl

theorem passes_item {quote : Char} (hq : isQuote quote = true) (closers : List Char)
    (item : QuotedItem quote) :
    Passes separator (.quoted quote closers) offset item.text (.quoted quote closers) [] := by
  cases item with
  | hidden c =>
    have backslash : Passes separator (.quoted quote closers) offset ['\\']
        (.escaped quote closers) [] :=
      passes_step hq (.escapes quote closers) (by simp [State.start])
    exact backslash.append (passes_step hq (.hides quote c closers) (by simp [State.start]))
  | shown c visible other =>
    exact passes_step hq (.stays closers visible other) (by simp [State.start])

theorem passes_items {quote : Char} (hq : isQuote quote = true) (closers : List Char)
    (items : List (QuotedItem quote)) :
    Passes separator (.quoted quote closers) offset (items.flatMap QuotedItem.text)
      (.quoted quote closers) [] := by
  induction items generalizing offset with
  | nil => exact .nil _
  | cons item items ih => exact (passes_item hq closers item).append ih

theorem passes_run (closers : List Char) (run : QuotedRun) :
    Passes separator (.plain closers) offset run.text (.plain closers) [] := by
  have hq : isQuote run.quote = true := isQuote_iff.2 run.is_quote
  have marked : isPlain run.quote = false := by simp [isPlain, hq]
  have opens : Passes separator (.plain closers) offset [run.quote]
      (.quoted run.quote closers) [] :=
    passes_step trivial (.quotes closers hq) (by simp [marked])
  exact opens.append ((passes_items hq closers run.items).append
    (passes_step hq (.ends closers (ne_backslash_of_isQuote hq)) (by simp [State.start])))

/-- Nothing is reported between brackets. -/
theorem passes_enclosed (kind : Kind) (closers : List Char) {inside : Text}
    (h : ∀ offset, Passes separator (.plain (kind.closing :: closers)) offset inside
      (.plain (kind.closing :: closers)) []) :
    Passes separator (.plain closers) offset (kind.enclose inside) (.plain closers) [] := by
  have opening : closer? kind.opening = some kind.closing :=
    closer?_eq_some_iff.2 ⟨kind, rfl, rfl⟩
  have marked : isPlain kind.opening = false := by simp [isPlain, opening]
  have opens : Passes separator (.plain closers) offset [kind.opening]
      (.plain (kind.closing :: closers)) [] :=
    passes_step trivial (.opens closers opening) (by simp [marked])
  exact opens.append ((h _).append
    (passes_step trivial (.closes closers (isCloser_closing kind)) (by simp [State.start])))

/-- The scan gets through a derived text and is where it was. It reports what is derived at the
outermost level, unless there are brackets around. -/
theorem passes_derived (d : Derivation) (closers : List Char) :
    Passes separator (.plain closers) offset d.text (.plain closers)
      (if closers = [] then d.offsets separator offset else []) := by
  induction d generalizing closers offset with
  | empty => simpa [Derivation.text, Derivation.offsets] using Passes.nil (.plain closers)
  | plain c unmarked rest ih =>
    have here : Passes separator (.plain closers) offset [c] (.plain closers)
        (if closers = [] then offsetsIn separator offset (Utf8.encode [c]) else []) :=
      passes_plain unmarked closers
    have whole := here.append (ih closers)
    by_cases outside : closers = []
    · simp only [if_pos outside] at whole ⊢
      exact whole
    · simp only [if_neg outside] at whole ⊢
      exact whole
  | quoted run rest ih => exact (passes_run closers run).append (ih closers)
  | enclosed kind inside rest ih_inside ih =>
    exact (passes_enclosed kind closers fun _ => ih_inside (kind.closing :: closers)).append
      (ih closers)

/-- The scan over the bytes of a derived text reports what is derived. -/
theorem offsets_text (separator : Option UInt8) (d : Derivation) :
    offsets separator d.text = some (d.offsets separator 0) := by
  have through : offsetsFrom separator (.plain []) 0 (Utf8.encode (d.text ++ [])) = _ :=
    passes_derived d [] []
  rw [List.append_nil] at through
  rw [offsets, State.start, through]
  simp [offsetsFrom, State.start]

/-! ## Back to a derivation -/

/-- What the rest of a text looks like when it closes all that is open: derived texts stand before,
between and behind the closing brackets, and a quote that is open is closed first. -/
inductive Unwinds : State → Text → Prop
  | done (d : Derivation) : Unwinds .start d.text
  | bracket (d : Derivation) (closer : Char) {closers : List Char} {t : Text}
    (later : Unwinds (.plain closers) t) :
    Unwinds (.plain (closer :: closers)) (d.text ++ closer :: t)
  | quote {quote : Char} (items : List (QuotedItem quote)) {closers : List Char} {t : Text}
    (later : Unwinds (.plain closers) t) :
    Unwinds (.quoted quote closers) (items.flatMap QuotedItem.text ++ quote :: t)
  | hidden {quote : Char} (c : Char) {closers : List Char} {t : Text}
    (later : Unwinds (.quoted quote closers) t) : Unwinds (.escaped quote closers) (c :: t)

/-- What can be derived in front of a derived text can stand in front of the first one. -/
theorem Unwinds.front {closers : List Char} {t : Text} (h : Unwinds (.plain closers) t)
    (extend : Derivation → Derivation) (front : Text)
    (text : ∀ d, (extend d).text = front ++ d.text) : Unwinds (.plain closers) (front ++ t) := by
  cases h with
  | done d => exact text d ▸ .done (extend d)
  | bracket d closer later =>
    rw [← List.append_assoc, ← text d]
    exact .bracket (extend d) closer later

/-- Once an opened bracket is closed, it stands with what it encloses in front of the rest. -/
theorem Unwinds.opening {kind : Kind} {closers : List Char} {t : Text}
    (h : Unwinds (.plain (kind.closing :: closers)) t) :
    Unwinds (.plain closers) (kind.opening :: t) := by
  cases h with
  | bracket inside _ later =>
    have whole := later.front (.enclosed kind inside) (kind.enclose inside.text) fun _ => rfl
    simpa [Kind.enclose] using whole

/-- The same for a quote. -/
theorem Unwinds.quoted {quote : Char} {closers : List Char} {t : Text}
    (is_quote : isQuote quote = true) (h : Unwinds (.quoted quote closers) t) :
    Unwinds (.plain closers) (quote :: t) := by
  cases h with
  | quote items later =>
    have whole := later.front (.quoted ⟨quote, isQuote_iff.1 is_quote, items⟩) _ fun _ => rfl
    simpa [QuotedRun.text] using whole

/-- Between quotes, one more item can stand in front. -/
theorem Unwinds.item {quote : Char} {closers : List Char} {t : Text}
    (h : Unwinds (.quoted quote closers) t) (item : QuotedItem quote) :
    Unwinds (.quoted quote closers) (item.text ++ t) := by
  cases h with
  | quote items later =>
    rw [← List.append_assoc, ← List.flatMap_cons]
    exact .quote (item :: items) later

/-- One step of the scan is a rule of the grammar, or a part of one that what follows completes. -/
theorem Unwinds.step {c : Char} {t : Text} (step : Step s c s₁) (h : Unwinds s₁ t) :
    Unwinds s (c :: t) := by
  cases step with
  | opens closers opening =>
    obtain ⟨kind, rfl, rfl⟩ := closer?_eq_some_iff.1 opening
    exact h.opening
  | closes closers closing => exact .bracket .empty c h
  | quotes closers is_quote => exact h.quoted is_quote
  | passes closers plain =>
    exact h.front (.plain c (isPlain_iff_notMem.1 plain)) [c] fun _ => rfl
  | escapes quote closers =>
    cases h with
    | hidden d later => exact later.item (.hidden d)
  | ends closers visible => exact .quote [] h
  | stays closers visible other => exact h.item (.shown c visible other)
  | hides quote c closers => exact .hidden c h

theorem unwinds_of_after? {t : Text} (run : after? s t = some .start) : Unwinds s t := by
  induction t generalizing s with
  | nil =>
    cases run
    exact .done .empty
  | cons c t ih =>
    obtain ⟨s₁, next, rest⟩ := after?_cons_eq_some_iff.1 run
    exact .step (next?_eq_some_iff.1 next) (ih rest)

theorem exists_derivation {t : Text} (h : isBalanced t = true) :
    ∃ d : Derivation, d.text = t := by
  have unwound : Unwinds .start t := unwinds_of_after? (closes_iff_after?.1 h)
  cases unwound with
  | done d => exact ⟨d, rfl⟩

/-- The balanced texts are the derived ones. Whatever separator it looks for, if any, the scan over
bytes gets through these texts only, and what it reports are the offsets of the separators that a
derivation has at the outermost level and outside quotes. For a separator of ASCII, that is where
the pieces of the text end. -/
theorem isBalanced_iff_derived :
    (∀ t, isBalanced t = true ↔ ∃ d : Derivation, d.text = t) ∧
    (∀ separator t, (offsets separator t).isSome = isBalanced t) ∧
    (∀ separator t found, offsets separator t = some found ↔
      ∃ d : Derivation, d.text = t ∧ d.offsets separator 0 = found) ∧
    ∀ (mark : Char) (t : Text), mark.toNat < 0x80 →
      offsets (some (UInt8.ofNat mark.toNat)) t = (pieces mark t).map (ends 0) := by
  have derived (d : Derivation) : isBalanced d.text = true := by
    rw [← isSome_offsets none, offsets_text]
    rfl
  refine ⟨fun t => ⟨exists_derivation, ?_⟩, isSome_offsets, fun separator t found => ⟨?_, ?_⟩,
    fun mark t ascii => offsets_eq ascii t⟩
  · rintro ⟨d, rfl⟩
    exact derived d
  · intro reported
    have balanced : isBalanced t = true := by
      rw [← isSome_offsets separator, reported]
      rfl
    obtain ⟨d, rfl⟩ := exists_derivation balanced
    exact ⟨d, rfl, Option.some.inj ((offsets_text separator d).symm.trans reported)⟩
  · rintro ⟨d, rfl, rfl⟩
    exact offsets_text separator d

/-- Separators outside, between brackets and between quotes, with a hidden quote before one of
them, behind a character of two bytes. -/
def mixed : Text := "é(a,[b]),\"x\\\",)\",y,<z>".toList

theorem isBalanced_iff_derived_mixed :
    ','.toNat < 0x80 ∧ isBalanced mixed = true ∧
      (∃ d : Derivation, d.text = mixed ∧ d.offsets (some 44) 0 = [9, 17, 19]) ∧
      (pieces ',' mixed).map (ends 0) = some [9, 17, 19] := by
  have ascii : ','.toNat < 0x80 := by decide
  have reported : offsets (some (UInt8.ofNat ','.toNat)) mixed = some [9, 17, 19] := by
    decide +kernel
  obtain ⟨balanced, -, places, ending⟩ := isBalanced_iff_derived
  have derived := (places _ mixed _).1 reported
  refine ⟨ascii, (balanced mixed).2 ?_, derived, (ending ',' mixed ascii).symm.trans reported⟩
  obtain ⟨d, text, -⟩ := derived
  exact ⟨d, text⟩

end ConstantDump.Bracket
