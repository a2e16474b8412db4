import ConstantDump.Text.Basic

/-!
Words without regard to case.
-/

namespace ConstantDump.Text

/-- Whether a character is the small ASCII letter, in either case. The long s counts as
an s. -/
def foldsTo (letter c : Char) : Bool := c.toLower = letter || (letter = 's' && c = 'ſ')

/-- The text after a word of small ASCII letters, in any case. -/
def dropWord? : (word : Text) → Text → Option Text
  | [], t => some t
  | _ :: _, [] => none
  | letter :: word, c :: t => if foldsTo letter c then dropWord? word t else none

def isWordFolded (word t : Text) : Bool := dropWord? word t = some []

end ConstantDump.Text
