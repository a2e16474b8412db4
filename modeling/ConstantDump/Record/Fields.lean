import ConstantDump.Name.Identifier
import ConstantDump.OrderedMap
import ConstantDump.Text.Blank

/-!
Field names of records. A raw field list is cut at commas and blanks; each raw name is
then made a plain identifier that is no reserved word and that no other field has.
-/

namespace ConstantDump.Record

/-- The raw field names between commas and blanks. -/
def splitFields (raw : Text) : List Text :=
  (raw.splitOnP fun c => c = ',' || Text.isBlank c).filter (· ≠ [])

/-- A plain identifier that is no reserved word. -/
def isSafe (name : Text) : Bool := Name.isIdentifier name && !Name.isReserved name

/-- A name that is not safe is replaced by its place among the fields; a safe one loses
its leading underscores if it is still safe without them. -/
def safeName (index : Nat) (raw : Text) : Text :=
  if isSafe raw then
    let stripped := raw.dropWhile (· = '_')
    if isSafe stripped then stripped else raw
  else '_' :: Text.ofNat index

def numbered (name : Text) (n : Nat) : Text := name ++ '_' :: Text.ofNat n

/-- The least number from `n` on with which the name is not taken, among `tries` of
them. -/
def firstFree (taken : OrderedMap Nat) (name : Text) (n : Nat) : (tries : Nat) → Nat
  | 0 => n
  | tries + 1 =>
    if taken.contains (numbered name n) then firstFree taken name (n + 1) tries else n

/-- Gives a name that is not taken yet and takes it. Each taken name keeps the number to
begin with when it comes again; one more try than there are taken names finds one that
is free. -/
def takeName (taken : OrderedMap Nat) (name : Text) : Text × OrderedMap Nat :=
  match taken.get? name with
  | none => (name, taken.insert name 1)
  | some count =>
    let n := firstFree taken name count (taken.size + 1)
    (numbered name n, (taken.insert name (n + 1)).insert (numbered name n) 1)

/-- The field names from the one at `index` on, and all that they take. Later fields
come first, so of two equal names the last one is kept. -/
def safeNamesFrom (index : Nat) : List Text → List Text × OrderedMap Nat
  | [] => ([], .empty)
  | raw :: rest =>
    let (names, taken) := safeNamesFrom (index + 1) rest
    let (name, taken) := takeName taken (safeName index raw)
    (name :: names, taken)

/-- Safe field names, each different from the others, for raw ones. -/
def safeNames (fields : List Text) : List Text := (safeNamesFrom 0 fields).1

end ConstantDump.Record
