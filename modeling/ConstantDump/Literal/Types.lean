import ConstantDump.Literal.CharacterType
import ConstantDump.Scope.Lookup

/-!
Types that literals can call: the records of a scope, and behind them the character
types.
-/

namespace ConstantDump

/-- A type that builds values from arguments. -/
inductive Constructor
  | character (type : CharacterType)
  | record (record : Record)
  deriving Repr

inductive ConstructError
  | character (error : CharacterTypeError)
  | record (error : RecordError)
  deriving DecidableEq, Repr

def ConstructError.message : ConstructError → Text
  | .character error => error.message
  | .record error => error.message

namespace Constructor

def name : Constructor → Text
  | .character t => t.name
  | .record r => r.name

def call : Constructor → List Value → Except ConstructError Value
  | .character t, arguments => (t.call arguments).mapError .character
  | .record r, arguments => (r.construct arguments).mapError .record

end Constructor

/-- The types that names stand for. -/
abbrev Types := Text → Option Constructor

namespace Types

def characters : Types := fun name => (CharacterType.ofName? name).map .character

/-- The records of a scope, by their qualified names. -/
def records (s : Scope) : Types := fun name => (s.record? name).map .record

/-- The types of the front, and behind them those of the back. -/
def layered (front back : Types) : Types := fun name => front name <|> back name

/-- The records of a scope, and behind them the character types. -/
def inScope (s : Scope) : Types := layered (records s) characters

end Types

end ConstantDump
