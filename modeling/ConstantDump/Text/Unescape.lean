import ConstantDump.Encoding.Utf8
import ConstantDump.Text.Digits

/-!
Backslash escapes. A text is read into characters and bytes; each run of bytes that
follow one another directly is then text in UTF-8, or in Latin-1 where it is not
well-formed UTF-8. What starts no escape stands for itself.
-/

namespace ConstantDump.Text

/-- What one character or escape stands for. -/
inductive Item
  | char (c : Char)
  | byte (b : UInt8)
  deriving DecidableEq, Repr

def simpleEscape? : Char → Option Char
  | 'n' => some '\n'
  | 't' => some '\t'
  | 'r' => some '\r'
  | 'a' => some '\x07'
  | 'b' => some '\x08'
  | 'f' => some '\x0c'
  | 'v' => some '\x0b'
  | '\\' => some '\\'
  | '\'' => some '\''
  | '"' => some '"'
  | '?' => some '?'
  | _ => none

/-- A number up to 255 is a byte, a greater one a code point. -/
def numeric (n : Nat) : List Item :=
  if n < 256 then [.byte (UInt8.ofNat n)] else (scalar? n).toList.map .char

def verbatim (t : Text) : List Item := t.map .char

/-- A code point of exactly `width` digits after `\` and the letter; anything else
stands for itself. -/
def fixedCodePoint (letter : Char) (width : Nat) (digits : Text) : List Item :=
  match if digits.length = width then scalar? (valueOf 16 digits) else none with
  | some c => [.char c]
  | none => verbatim ('\\' :: letter :: digits)

/-- A code point in braces; anything else stands for itself. -/
def bracedCodePoint (digits : Text) : List Item :=
  match if digits = [] then none else scalar? (valueOf 16 digits) with
  | some c => [.char c]
  | none => verbatim (['\\', 'u', '{'] ++ digits ++ ['}'])

/-- The escape that `\` and `letter` start before `rest`: what it stands for, and what
is left after it. -/
def escape (letter : Char) (rest : Text) : List Item × Text :=
  if isDigitOf 8 letter then
    let digits := takeDigits 8 2 rest
    (numeric (valueOf 8 (letter :: digits)), rest.drop digits.length)
  else if letter = 'x' then
    let digits := takeDigits 16 2 rest
    (if digits = [] then verbatim ['\\', 'x'] else numeric (valueOf 16 digits),
      rest.drop digits.length)
  else if letter = 'U' then
    let digits := takeDigits 16 8 rest
    (fixedCodePoint 'U' 8 digits, rest.drop digits.length)
  else if letter = 'u' then
    match rest with
    | '{' :: inner =>
      let digits := takeDigits 16 6 inner
      match inner.drop digits.length with
      | '}' :: left => (bracedCodePoint digits, left)
      | left => (verbatim (['\\', 'u', '{'] ++ digits), left)
    | _ =>
      let digits := takeDigits 16 4 rest
      (fixedCodePoint 'u' 4 digits, rest.drop digits.length)
  else
    match simpleEscape? letter with
    | some c => ([.char c], rest)
    | none => (verbatim ['\\', letter], rest)

theorem length_escape_le (letter : Char) (rest : Text) :
    (escape letter rest).2.length ≤ rest.length := by
  unfold escape
  split
  · simp
  split
  · simp
  split
  · simp
  split
  · split
    · rename_i inner
      have h : (inner.drop (takeDigits 16 6 inner).length).length ≤ inner.length := by simp
      simp only
      split
      · rename_i left heq
        rw [heq] at h
        simp only [List.length_cons] at h ⊢
        omega
      · simp only [List.length_cons]; omega
    · simp
  · split <;> simp

def items : Text → List Item
  | [] => []
  | ['\\'] => [.char '\\']
  | '\\' :: letter :: rest => (escape letter rest).1 ++ items (escape letter rest).2
  | c :: rest => .char c :: items rest
termination_by t => t.length
decreasing_by
  · have := length_escape_le letter rest
    simp only [List.length_cons]; omega
  · simp

/-- A run of bytes as text: UTF-8 if it is that as a whole, else Latin-1. -/
def ofBytes (bytes : List UInt8) : Text :=
  (Utf8.decode bytes).getD (bytes.map fun byte => Char.ofNat byte.toNat)

/-- The text of the items after a run of bytes that is still open. -/
def ofItemsAfter (run : List UInt8) : List Item → Text
  | [] => ofBytes run
  | .byte b :: rest => ofItemsAfter (run ++ [b]) rest
  | .char c :: rest => ofBytes run ++ c :: ofItemsAfter [] rest

/-- The text of the items, each longest run of bytes taken as a whole. -/
def ofItems (items : List Item) : Text := ofItemsAfter [] items

def unescape (body : Text) : Text := ofItems (items body)

end ConstantDump.Text
