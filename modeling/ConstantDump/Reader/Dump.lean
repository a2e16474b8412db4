import ConstantDump.Reader.Line
import ConstantDump.Text.Lines

/-!
Reading whole dumps, line by line. The first line that fails or is not accepted ends it;
what the lines before it changed stays changed.
-/

namespace ConstantDump

structure DumpOutcome where
  reader : Reader
  scope : Scope
  result : Except ReadError Unit

namespace Reader

/-- Reads lines, the first of which has the given number. -/
def readLines (reader : Reader) (number : Nat) : List Text → Scope → DumpOutcome
  | [], s => ⟨reader, s, .ok ()⟩
  | text :: rest, s =>
    let outcome := reader.line number text s
    match outcome.result with
    | .error error => ⟨outcome.state, outcome.scope, .error error⟩
    | .ok false => ⟨outcome.state, outcome.scope, .error (.unrecognized text number)⟩
    | .ok true => outcome.state.readLines (number + 1) rest outcome.scope

def readInto (reader : Reader) (dump : Text) (s : Scope) : DumpOutcome :=
  reader.readLines 1 (Text.lines dump) s

/-- Reads a dump into an empty scope, after a reset. -/
def read (reader : Reader) (dump : Text) : DumpOutcome :=
  reader.reset.readInto dump .empty

end Reader

end ConstantDump
