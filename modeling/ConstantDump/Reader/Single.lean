import ConstantDump.Reader.Line

/-!
Reading a line that stands alone: the name and the thing are given back, and no scope is
involved.
-/

namespace ConstantDump.Reader

def valueItem (name raw : Text) : Text × Entry :=
  (name, .value (Literal.decode Types.characters raw))

mutual

/-- The thing that a line declares, and the state of the reader after it. -/
def single : Reader → Text → Reader × Except ReadError (Text × Entry)
  | .constants, text =>
    match Line.constant? text with
    | none => (.constants, .error (.noSingleItem text))
    | some (name, raw) => (.constants, .ok (valueItem name raw))
  | .enums opened anonymous, _ =>
    (.enums opened anonymous, .error (.unsupported (name (.enums opened anonymous))))
  | .records, text =>
    match Line.record? text with
    | none => (.records, .error (.noSingleItem text))
    | some (name, fields) =>
      (.records, .ok (name, .record (.ofFieldList name fields) .empty))
  | .literals counters, text =>
    match Line.literal? text with
    | none => (.literals counters, .error (.noSingleItem text))
    | some (name, raw) =>
      let (name, counters) := counters.number name
      (.literals counters, .ok (valueItem name raw))
  | .group config members, text =>
    let (members, item) := singleFirst members text
    (.group config members,
      match item with
      | some item => .ok item
      | none => .error (.noSingleItem text))

/-- The thing that the first reader with one sees in a line. -/
def singleFirst : List Reader → Text → List Reader × Option (Text × Entry)
  | [], _ => ([], none)
  | reader :: rest, text =>
    let (reader, result) := reader.single text
    match result with
    | .ok item => (reader :: rest, some item)
    | .error _ =>
      let (rest, item) := singleFirst rest text
      (reader :: rest, item)

end

end ConstantDump.Reader
