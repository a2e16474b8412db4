import ConstantDump.Line.Enumeration
import ConstantDump.Line.Literal
import ConstantDump.Line.Record
import ConstantDump.Literal.Decode
import ConstantDump.Reader.Basic
import ConstantDump.Scope.Update

/-!
Reading one line into a scope. A reader either declines a line, or recognises it and
changes the scope, or fails. What was changed before a failure stays changed.
-/

namespace ConstantDump

/-- What reading a line leaves: the state of the reader, the scope, and whether the line
was recognised. -/
structure Outcome (σ : Type) where
  state : σ
  scope : Scope
  result : Except ReadError Bool

namespace Counters

/-- The count for an enclosing scope: by the name under which it stores things. -/
def enclosing (name : Text) : Text := Name.normalize ((Name.splitLast name).1.getD [])

/-- The name with the count of its enclosing scope after it, which goes up by one. -/
def number (counters : Counters) (name : Text) : Text × Counters :=
  let key := enclosing name
  let count := (counters.get? key).getD 0
  (name ++ '\x60' :: Text.ofNat count, counters.insert key (count + 1))

end Counters

namespace Reader

def declined {σ : Type} (state : σ) (s : Scope) : Outcome σ := ⟨state, s, .ok false⟩

def stored {σ : Type} (state : σ) (s : Scope) (number : Nat) (name : Text) (entry : Entry) :
    Outcome σ :=
  match s.assign name entry with
  | (s, .ok ()) => ⟨state, s, .ok true⟩
  | (s, .error error) => ⟨state, s, .error (.scope error number)⟩

def lineConstants (number : Nat) (line : Text) (s : Scope) : Outcome Reader :=
  match Line.constant? line with
  | none => declined .constants s
  | some (name, raw) => stored .constants s number name (.value (Literal.decodeIn s raw))

/-- Stores a record. What was declared inside a scope or record of the same name stays
declared inside it. -/
def lineRecords (number : Nat) (line : Text) (s : Scope) : Outcome Reader :=
  match Line.record? line with
  | none => declined .records s
  | some (name, fields) =>
    stored .records s number name
      (.record (.ofFieldList name fields) ((s.members? name).getD .empty))

/-- Stores a record in two steps. The members of its place are taken out, and then the record is
stored with them. -/
def registerRecord (number : Nat) (name fields : Text) (s : Scope) : Outcome Reader :=
  let members := (s.members? name).getD .empty
  stored .records (s.withoutMembers name) number name (.record (.ofFieldList name fields) members)

def lineLiterals (counters : Counters) (number : Nat) (line : Text) (s : Scope) :
    Outcome Reader :=
  match Line.literal? line with
  | none => declined (.literals counters) s
  | some (name, raw) =>
    let (name, counters) := counters.number name
    stored (.literals counters) s number name (.value (Literal.decodeIn s raw))

def addEnumerator (opened : Text) (number : Nat) (line : Text) (s : Scope) :
    Except ReadError Scope :=
  match Line.constant? line with
  | none => .error (.notAnEnumerator line number)
  | some (name, raw) =>
    match (Literal.decodeIn s raw).integral? with
    | none => .error (.notAnEnumerator line number)
    | some value =>
      match s.addEnumerator? opened (Name.splitLast name).2 value with
      | none => .error (.notAnEnumerator line number)
      | some (.error error) => .error (.enumeration error number)
      | some (.ok s) => .ok s

/-- Opens an enumeration. One without a name is stored under its placeholder and
number. -/
def openEnum (anonymous : Counters) (number : Nat) (name : Text) (s : Scope) :
    Outcome Reader :=
  let plain := (Name.splitLast name).2
  let (stored, anonymous) :=
    if Line.isAnonymous plain then anonymous.number name else (name, anonymous)
  match s.assign stored (.enumeration (.named plain)) with
  | (s, .ok ()) => ⟨.enums (some stored) anonymous, s, .ok true⟩
  | (s, .error error) => ⟨.enums none anonymous, s, .error (.scope error number)⟩

/-- Opens an enumeration, adds an enumerator to the open one, or closes it. -/
def lineEnums (opened : Option Text) (anonymous : Counters) (number : Nat) (line : Text)
    (s : Scope) : Outcome Reader :=
  match Line.enumOpening? line, opened with
  | some _, some _ => declined (.enums opened anonymous) s
  | some name, none => openEnum anonymous number name s
  | none, none => declined (.enums opened anonymous) s
  | none, some name =>
    if Line.closesEnum line then ⟨.enums none anonymous, s, .ok true⟩
    else if Text.isAllBlank line then declined (.enums opened anonymous) s
    else
      match addEnumerator name number line s with
      | .ok s => ⟨.enums opened anonymous, s, .ok true⟩
      | .error error => ⟨.enums opened anonymous, s, .error error⟩

mutual

def line : Reader → (number : Nat) → Text → Scope → Outcome Reader
  | .constants, number, text, s => lineConstants number text s
  | .enums opened anonymous, number, text, s => lineEnums opened anonymous number text s
  | .records, number, text, s => lineRecords number text s
  | .literals counters, number, text, s => lineLiterals counters number text s
  | .group config members, number, text, s =>
    let outcome := lineAll members number text s
    ⟨.group config outcome.state, outcome.scope,
      outcome.result.map fun recognized => config.accepts recognized text⟩

/-- Passes one line to several readers, until one of them fails. -/
def lineAll : List Reader → (number : Nat) → Text → Scope → Outcome (List Reader)
  | [], _, _, s => declined [] s
  | reader :: rest, number, text, s =>
    let first := reader.line number text s
    match first.result with
    | .error error => ⟨first.state :: rest, first.scope, .error error⟩
    | .ok recognized =>
      let others := lineAll rest number text first.scope
      ⟨first.state :: others.state, others.scope, others.result.map (recognized || ·)⟩

end

end Reader

end ConstantDump
