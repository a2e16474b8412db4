import ConstantDump.Reader.Dump
import ConstantDump.Scope.Equality

/-!
The constants of one or more dumps, with their macros.
-/

namespace ConstantDump

structure SourceData where
  scope : Scope
  /-- The replacement texts of macros. -/
  macros : OrderedMap Text
  deriving DecidableEq, Repr

namespace SourceData

def empty : SourceData := ⟨.empty, .empty⟩

/-- Adds what the other data have; under a name that both have, it replaces what was
there. Scopes of one name are not merged. -/
def update (data other : SourceData) : SourceData :=
  ⟨data.scope.update other.scope, data.macros.update other.macros⟩

/-- Reads a dump on top of the constants that are there, and adds macros. When a line
fails, the lines before it stay read and no macro is added. -/
def load (data : SourceData) (dump : Text) (macros : OrderedMap Text) (config : Config) :
    SourceData × Except ReadError Unit :=
  let outcome := (Reader.standard config).readInto dump data.scope
  match outcome.result with
  | .ok () => (⟨outcome.scope, data.macros.update macros⟩, .ok ())
  | .error error => (⟨outcome.scope, data.macros⟩, .error error)

def ofDump (dump : Text) (macros : OrderedMap Text) (config : Config) :
    Except ReadError SourceData :=
  match empty.load dump macros config with
  | (data, .ok ()) => .ok data
  | (_, .error error) => .error error

def equal (data other : SourceData) : Bool :=
  data.scope.equal other.scope && data.macros.equalBy (· == ·) other.macros

end SourceData

end ConstantDump
