import ConstantDump.Bracket
import ConstantDump.Literal.Number
import ConstantDump.Text.Folding
import ConstantDump.Text.Unescape
import ConstantDump.Value.Equality

/-!
The forms of literals. The first form that fits a text counts: an integer, a float, a
quoted text, a truth value, an array, a call of a type; what fits none is kept verbatim.
Main statement: the elements of an array and the arguments of a call are shorter than
the literal.
-/

namespace ConstantDump.Literal

/-- A quoted character or string: the quotes at both ends are the same. Single quotes
around one character make a character. -/
def quoted? : Text → Option Value
  | [] => none
  | quote :: rest =>
    if Bracket.isQuote quote ∧ rest.getLast? = some quote then
      let contents := Text.unescape rest.dropLast
      match quote, contents with
      | '\'', [c] => some (.char c)
      | _, _ => some (.str contents)
    else none

/-- A truth value, in any case. -/
def truth? (raw : Text) : Option Bool :=
  if Text.isWordFolded "true".toList raw then some true
  else if Text.isWordFolded "false".toList raw then some false
  else none

/-- A literal without parts. -/
def scalar? (raw : Text) : Option Value :=
  (integer? raw).map .int <|> (float? raw).map .float <|> quoted? raw <|>
    (truth? raw).map .bool

def insideParentheses? (raw : Text) : Option Text :=
  ['('].isPrefixOf? raw >>= ([')'].isSuffixOf? ·)

def elements? (raw : Text) : Option (List Text) :=
  insideParentheses? raw >>= Bracket.split ','

/-- From right to left, the parenthesis that opens what `depth` closing ones leave open:
the text before it, which may not be empty, and the text after it. The text still to be
read is in reverse, its last character first. -/
def openingFrom (depth : Nat) (after : Text) : Text → Option (Text × Text)
  | [] => none
  | c :: before =>
    if c = ')' then openingFrom (depth + 1) (c :: after) before
    else if c = '(' then
      if depth = 0 then if before = [] then none else some (before.reverse, after)
      else openingFrom (depth - 1) (c :: after) before
    else openingFrom depth (c :: after) before

/-- A type name before a parenthesis, and the text between that and its partner at the
end. There are as many opening parentheses as closing ones. -/
def call? (raw : Text) : Option (Text × Text) := do
  let body ← [')'].isSuffixOf? raw
  if raw.count '(' = raw.count ')' then openingFrom 0 [] body.reverse else none

inductive Form
  | scalar (value : Value)
  | array (elements : List Text)
  | call (typeName : Text) (arguments : List Text)
  | verbatim
  deriving DecidableEq, Repr

def callForm? (raw : Text) : Option Form := do
  let (typeName, parameters) ← call? raw
  return .call typeName (← Bracket.split ',' parameters)

namespace Form

def ofText (raw : Text) : Form :=
  ((scalar? raw).map Form.scalar <|> (elements? raw).map Form.array <|> callForm? raw).getD
    .verbatim

/-- The texts that are literals inside a form. -/
def parts : Form → List Text
  | .scalar _ => []
  | .array elements => elements
  | .call _ arguments => arguments
  | .verbatim => []

end Form

theorem length_insideParentheses? {raw inner : Text} (h : insideParentheses? raw = some inner) :
    inner.length + 2 = raw.length := by
  obtain ⟨rest, h₁, h₂⟩ := Option.bind_eq_some_iff.1 h
  rw [Text.isPrefixOf?_eq_some_iff.1 h₁, Text.isSuffixOf?_eq_some_iff.1 h₂]
  simp

theorem length_openingFrom {depth : Nat} {after before typeName parameters : Text}
    (h : openingFrom depth after before = some (typeName, parameters)) :
    parameters.length ≤ after.length + before.length := by
  induction before generalizing depth after with
  | nil => simp [openingFrom] at h
  | cons c before ih =>
    unfold openingFrom at h
    split at h
    · have := ih h; simp only [List.length_cons] at *; omega
    · split at h
      · split at h
        · split at h
          · simp at h
          · simp only [Option.some.injEq, Prod.mk.injEq] at h
            rw [← h.2]; simp
        · have := ih h; simp only [List.length_cons] at *; omega
      · have := ih h; simp only [List.length_cons] at *; omega

theorem length_call? {raw typeName parameters : Text}
    (h : call? raw = some (typeName, parameters)) : parameters.length < raw.length := by
  obtain ⟨body, h₁, h₂⟩ := Option.bind_eq_some_iff.1 h
  rw [Text.isSuffixOf?_eq_some_iff.1 h₁]
  split at h₂
  · have := length_openingFrom h₂
    simp only [List.length_nil, List.length_reverse, List.length_append, List.length_cons] at *
    omega
  · simp at h₂

/-- A literal inside another is shorter. -/
theorem length_part_lt {raw part : Text} (h : part ∈ (Form.ofText raw).parts) :
    part.length < raw.length := by
  unfold Form.ofText at h
  cases hs : scalar? raw with
  | some v => simp [hs, Form.parts] at h
  | none =>
    cases he : elements? raw with
    | some elements =>
      obtain ⟨inner, h₁, h₂⟩ := Option.bind_eq_some_iff.1 he
      have hp : part ∈ elements := by simpa [hs, he, Form.parts] using h
      have := Bracket.length_le_of_mem_split h₂ hp
      have := length_insideParentheses? h₁
      omega
    | none =>
      cases hc : callForm? raw with
      | none => simp [hs, he, hc, Form.parts] at h
      | some form =>
        obtain ⟨⟨typeName, parameters⟩, h₁, h₂⟩ := Option.bind_eq_some_iff.1 hc
        obtain ⟨arguments, h₃, h₄⟩ := Option.bind_eq_some_iff.1 h₂
        cases h₄
        have hp : part ∈ arguments := by simpa [hs, he, hc, Form.parts] using h
        have := Bracket.length_le_of_mem_split h₃ hp
        have := length_call? h₁
        omega

end ConstantDump.Literal
