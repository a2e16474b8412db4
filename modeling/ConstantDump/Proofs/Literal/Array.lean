import ConstantDump.Proofs.Bracket.Quotation
import ConstantDump.Proofs.Bracket.Spaced
import ConstantDump.Proofs.Literal.PlainCall

/-!
Arrays, inside one another as deep as may be.

* `decode_parenthesized`: what is split between parentheses is decoded element by element;
* `Tree.split_text`: a written tree of arrays is one piece, so it can be an element itself;
* `decode_arrayText`: the law for elements with blanks around them, and from it that every tree
  of arrays over integers and quoted texts comes back from its written form.
-/

namespace ConstantDump.Literal

/-! ## One array -/

/-- What is split between parentheses is an array, whatever the types are called. -/
theorem decode_parenthesized {inner : Text} {elements : List Text}
    (h : Bracket.split ',' inner = some elements) (types : Types) :
    decode types ('(' :: (inner ++ [')'])) = .list (elements.map (decode types)) := by
  have ends : ('(' :: (inner ++ [')'])).getLast? = some ')' := Text.getLast?_enclosed ..
  have inside : insideParentheses? ('(' :: (inner ++ [')'])) = some inner :=
    (Option.bind_eq_some_iff (x := ['('].isPrefixOf? _)).2 ⟨inner ++ [')'],
      Text.isPrefixOf?_eq_some_iff.2 rfl, Text.isSuffixOf?_eq_some_iff.2 rfl⟩
  have form : Form.ofText ('(' :: (inner ++ [')'])) = .array elements := by
    simp [Form.ofText, scalar?_eq_none ends, elements?, inside, h]
  rw [decode_eq, form]

def arrayText (elements : List Bracket.Spaced) : Text :=
  '(' :: (Text.join [','] (elements.map Bracket.Spaced.written) ++ [')'])

/-! ## Quoted texts -/

/-- A quoted literal: its quote, and what stands in it, escapes and all. -/
structure Quotation where
  quote : Char
  body : Text
  isQuote : Bracket.isQuote quote = true
  stays : Text.staysQuoted quote body = true

namespace Quotation

def text (q : Quotation) : Text := Text.quotation q.quote q.body

/-- What stands for a text between quotes: a character, when it is just one between single
quotes, or else a string. -/
def valueOf (quote : Char) (contents : Text) : Value :=
  match quote, contents with
  | '\'', [c] => .char c
  | _, _ => .str contents

theorem quoted?_quotation {quote : Char} (h : Bracket.isQuote quote = true) (body : Text) :
    quoted? (Text.quotation quote body) = some (valueOf quote (Text.unescape body)) := by
  have ends : (body ++ [quote]).getLast? = some quote := List.getLast?_concat ..
  simp only [Text.quotation, quoted?, h, ends, and_self, ↓reduceIte, List.dropLast_concat, valueOf]
  split <;> simp_all

def value (q : Quotation) : Value := valueOf q.quote (Text.unescape q.body)

def ofContents (quote : Char) (h : Bracket.isQuote quote = true) (contents : Text) : Quotation :=
  ⟨quote, Text.sheltered quote contents, h, Text.staysQuoted_sheltered quote contents⟩

/-- What begins and ends with one quote is read as a quoted text, whatever is in between. -/
theorem decode_enclosed {quote : Char} (h : Bracket.isQuote quote = true) (body : Text)
    (types : Types) :
    decode types (Text.quotation quote body) = valueOf quote (Text.unescape body) := by
  have last : (Text.quotation quote body).getLast? = some quote := Text.getLast?_enclosed ..
  have quotes : quote = '"' ∨ quote = '\'' := Bracket.isQuote_iff.1 h
  have no_digit : quote.isDigit = false := by rcases quotes with rfl | rfl <;> rfl
  obtain ⟨no_integer, no_float⟩ := numbers_eq_none last no_digit
  have form : Form.ofText (Text.quotation quote body) =
      .scalar (valueOf quote (Text.unescape body)) := by
    simp [Form.ofText, scalar?, no_integer, no_float, quoted?_quotation h body]
  rw [decode_eq, form]

theorem decode_text (q : Quotation) (types : Types) : decode types q.text = q.value :=
  decode_enclosed q.isQuote q.body types

end Quotation

/-! ## Trees of arrays -/

/-- Arrays over integers and quoted texts. -/
inductive Tree
  | integer (n : Int) (range : inRange n = true)
  | quoted (q : Quotation)
  | array (items : List Tree)

namespace Tree

mutual

/-- The written form, with blanks behind each comma. -/
def text (blanks : Text) : Tree → Text
  | .integer n _ => Text.ofInt n
  | .quoted q => q.text
  | .array items => '(' :: (Text.join (',' :: blanks) (texts blanks items) ++ [')'])

def texts (blanks : Text) : List Tree → List Text
  | [] => []
  | item :: rest => text blanks item :: texts blanks rest

end

mutual

def value : Tree → Value
  | .integer n _ => .int n
  | .quoted q => q.value
  | .array items => .list (values items)

def values : List Tree → List Value
  | [] => []
  | item :: rest => value item :: values rest

end

variable {blanks : Text}

mutual

/-- A written tree is one piece. -/
theorem split_text (hb : blanks.all Text.isBlank = true) :
    (t : Tree) → Bracket.split ',' (t.text blanks) = some [t.text blanks]
  | .integer n _ => by
    rw [text]
    exact split_ofInt n
  | .quoted q => by
    rw [text]
    exact Bracket.split_quotation q.isQuote q.stays
  | .array items => by
    have inside := Bracket.split_join (by decide) (by decide) hb (split_texts hb items)
    have front : (text blanks (.array items)).head? = some '(' := by rw [text]; rfl
    have back : (text blanks (.array items)).getLast? = some ')' := by
      rw [text]
      exact Text.getLast?_enclosed ..
    refine Bracket.split_eq_singleton_iff.2 ⟨?_, ?_, ?_⟩
    · rw [text]
      rfl
    · rw [text]
      exact Bracket.pieces_enclosed (u := []) (by simp) rfl
        (Bracket.after?_of_split (by decide) inside)
    · rw [Text.trim, Text.trimStart_of_head? front (by decide),
        Text.trimEnd_of_getLast? back (by decide)]

theorem split_texts (hb : blanks.all Text.isBlank = true) :
    (items : List Tree) → ∀ t ∈ texts blanks items, Bracket.split ',' t = some [t]
  | [] => by simp [texts]
  | item :: rest => by
    rw [texts, List.forall_mem_cons]
    exact ⟨split_text hb item, split_texts hb rest⟩

end

mutual

/-- A written tree is decoded as the tree. -/
theorem decode_text (hb : blanks.all Text.isBlank = true) (types : Types) :
    (t : Tree) → decode types (t.text blanks) = t.value
  | .integer n range => by
    rw [text, value]
    exact decode_ofInt range types
  | .quoted q => by
    rw [text, value]
    exact q.decode_text types
  | .array items => by
    have inside := Bracket.split_join (by decide) (by decide) hb (split_texts hb items)
    rw [text, value, decode_parenthesized inside, decode_texts hb types items]

theorem decode_texts (hb : blanks.all Text.isBlank = true) (types : Types) :
    (items : List Tree) → (texts blanks items).map (decode types) = values items
  | [] => rfl
  | item :: rest => by
    rw [texts, values, List.map_cons, decode_text hb types item, decode_texts hb types rest]

end

end Tree

/-- Between parentheses, elements with commas between them and blanks around them are decoded
one by one. Each of them is one piece, or it is empty and not alone. Hence every tree of arrays
over integers and quoted texts comes back from its written form, whatever the types are; and
every text can stand between quotes. -/
theorem decode_arrayText :
    (∀ (types : Types) (elements : List Bracket.Spaced), elements ≠ [] →
      (∀ e ∈ elements, Bracket.split ',' e.text = some [e.text] ∨
        e.text = [] ∧ 2 ≤ elements.length) →
      decode types (arrayText elements) =
        .list (elements.map fun e => decode types e.text)) ∧
    (∀ (types : Types) (blanks : Text) (t : Tree), blanks.all Text.isBlank = true →
      decode types (t.text blanks) = t.value) ∧
    ∀ (quote : Char) (h : Bracket.isQuote quote = true) (contents : Text),
      (Quotation.ofContents quote h contents).value = Quotation.valueOf quote contents := by
  refine ⟨fun types elements some_element each => ?_, fun types blanks t hb =>
    t.decode_text hb types, fun quote h contents => ?_⟩
  · have apart := Bracket.split_join_spaced (by decide) (by decide) some_element each
    rw [arrayText, decode_parenthesized apart, List.map_map]
    rfl
  · rw [Quotation.value, Quotation.ofContents, Text.unescape_sheltered h]

/-- An array of an integer, an empty element and an array of arrays. -/
def threeElements : List Bracket.Spaced :=
  [⟨[], "1".toList, " ".toList, rfl, rfl⟩, ⟨" ".toList, [], [], rfl, rfl⟩,
    ⟨"\t".toList, "(',', ((2)))".toList, [], rfl, rfl⟩]

/-- A tree with brackets, commas and quotes between its quotes. -/
def guardedTree : Tree :=
  .array [.array [.integer 1 rfl, .integer (-2) rfl],
    .array [.quoted (.ofContents '"' rfl "a),\"".toList), .quoted (.ofContents '\'' rfl ['('])],
    .array []]

theorem decode_arrayText_nested :
    arrayText threeElements = "(1 , ,\t(',', ((2))))".toList ∧
    decode .characters (arrayText threeElements) =
      .list [.int 1, .text [], .list [.char ',', .list [.list [.int 2]]]] ∧
    guardedTree.text [' '] = "((1, -2), (\"a),\\\"\", '('), ())".toList ∧
    decode .characters (guardedTree.text [' ']) =
      .list [.list [.int 1, .int (-2)], .list [.str "a),\"".toList, .char '('], .list []] := by
  have elements := decode_arrayText.1 .characters threeElements (by simp [threeElements])
    (by decide +kernel)
  have values : (threeElements.map fun e => decode .characters e.text) =
      [.int 1, .text [], .list [.char ',', .list [.list [.int 2]]]] := by decide +kernel
  have tree := decode_arrayText.2.1 .characters [' '] guardedTree rfl
  refine ⟨by decide +kernel, ?_, by decide +kernel, ?_⟩
  · rw [elements, values]
  · rw [tree]
    have string := decode_arrayText.2.2 '"' rfl "a),\"".toList
    have character := decode_arrayText.2.2 '\'' rfl ['(']
    simp only [guardedTree, Tree.value, Tree.values]
    rw [string, character]
    rfl

end ConstantDump.Literal
