import ConstantDump.Scope.Basic

/-!
Readers of dump lines. A reader looks at one line at a time; a group passes each line to
all of its members in turn.
-/

namespace ConstantDump

/-- What a group does about lines that no member recognises. -/
structure Config where
  /-- Refuse such lines. -/
  strict : Bool
  /-- Accept blank ones all the same. -/
  ignoreEmpty : Bool
  deriving DecidableEq, Repr

namespace Config

/-- Refuse what no member recognises, unless it is blank. -/
def default : Config := ⟨true, true⟩

/-- Accept everything. -/
def lenient : Config := ⟨false, true⟩

def accepts (config : Config) (recognized : Bool) (line : Text) : Bool :=
  recognized || !config.strict || (config.ignoreEmpty && Text.isAllBlank line)

end Config

/-- How many nameless things each enclosing scope has had. -/
abbrev Counters := OrderedMap Nat

inductive Reader
  | constants
  /-- Reads enumerations. The name of the one that is open, if any, and how many
  anonymous ones there have been. -/
  | enums (opened : Option Text) (anonymous : Counters)
  | records
  /-- Reads literals, and counts them. -/
  | literals (counters : Counters)
  /-- Passes lines to its members. -/
  | group (config : Config) (members : List Reader)
  deriving Repr

inductive ReadError
  | unrecognized (line : Text) (number : Nat)
  /-- Between the braces of an enumeration, but no enumerator. -/
  | notAnEnumerator (line : Text) (number : Nat)
  | scope (error : ScopeError) (number : Nat)
  | enumeration (error : EnumerationError) (number : Nat)
  /-- Not the line of one named thing. -/
  | noSingleItem (line : Text)
  | unsupported (reader : Text)
  deriving DecidableEq, Repr

namespace ReadError

def lineNumber? : ReadError → Option Nat
  | .unrecognized _ number => some number
  | .notAnEnumerator _ number => some number
  | .scope _ number => some number
  | .enumeration _ number => some number
  | .noSingleItem _ => none
  | .unsupported _ => none

def atLine (number : Nat) : Text :=
  "error parsing line #".toList ++ Text.ofNat number ++ ": ".toList

def message : ReadError → Text
  | .unrecognized line number => atLine number ++ Text.quoted line
  | .notAnEnumerator line number =>
    atLine number ++ "not an enumerator: ".toList ++ Text.quoted line
  | .scope error number => atLine number ++ error.message
  | .enumeration error number => atLine number ++ error.message
  | .noSingleItem line => "error parsing line: ".toList ++ Text.quoted line
  | .unsupported reader => "single line parsing is not supported by ".toList ++ reader

end ReadError

namespace Reader

def name : Reader → Text
  | .constants => "ConstantsParser".toList
  | .enums _ _ => "EnumsParser".toList
  | .records => "RecordsParser".toList
  | .literals _ => "LiteralsParser".toList
  | .group _ _ => "Parser".toList

def isOpen : Reader → Bool
  | .enums opened _ => opened.isSome
  | _ => false

/-- The reader for whole dumps. Records come first, so that constants in the same line
do not hide them, and an enumeration takes its enumerators before the constants do. -/
def standard (config : Config) : Reader :=
  .group config [.records, .enums none .empty, .constants, .literals .empty]

mutual

/-- The reader without an open enumeration and with all counts at zero. -/
def reset : Reader → Reader
  | .constants => .constants
  | .enums _ _ => .enums none .empty
  | .records => .records
  | .literals _ => .literals .empty
  | .group config members => .group config (resetAll members)

def resetAll : List Reader → List Reader
  | [] => []
  | reader :: rest => reader.reset :: resetAll rest

end

end Reader

end ConstantDump
