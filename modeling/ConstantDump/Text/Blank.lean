import ConstantDump.Text.Ranges

/-!
Blank characters and what is left of a text without them at its ends.
-/

namespace ConstantDump.Text

/-- The code points with the property White_Space. -/
def blankRanges : List (Nat × Nat) :=
  [ (0x9, 0xD), (0x20, 0x20), (0x85, 0x85), (0xA0, 0xA0), (0x1680, 0x1680), (0x2000, 0x200A),
    (0x2028, 0x2029), (0x202F, 0x202F), (0x205F, 0x205F), (0x3000, 0x3000) ]

def isBlank (c : Char) : Bool := inRanges blankRanges c

/-- The blanks of ASCII but the vertical tab. -/
def isAsciiBlank (c : Char) : Bool :=
  c = ' ' || c = '\t' || c = '\n' || c = '\x0c' || c = '\r'

def trimStart (t : Text) : Text := t.dropWhile isBlank

def trimEnd (t : Text) : Text := (t.reverse.dropWhile isBlank).reverse

def trim (t : Text) : Text := trimEnd (trimStart t)

def isAllBlank (t : Text) : Bool := t.all isBlank

theorem length_trim_le (t : Text) : (trim t).length ≤ t.length := by
  have h (s : Text) : (s.dropWhile isBlank).length ≤ s.length :=
    (List.dropWhile_sublist _).length_le
  have h₁ := h t
  have h₂ := h (t.dropWhile isBlank).reverse
  simp only [trim, trimEnd, trimStart, List.length_reverse] at *
  omega

end ConstantDump.Text
