import ConstantDump.Scope.Lookup

/-!
Changing what a qualified name stands for. Assigning creates the scopes that are missing
on the way; modifying changes only an entry that is there. Both keep the order of names.
-/

namespace ConstantDump.Scope

def assignEnumerator (name : Text) (entry : Entry) (e : Enumeration) (enumerator : Text) :
    Except ScopeError Enumeration :=
  match entry.integral? with
  | none => .error (.notIntegral name entry.kind)
  | some value => (e.insert enumerator value).mapError .enumeration

/-- Assigns along the components, and creates the scopes that are missing on the way.
Gives the scope that is left, also when the way ends at something that is no scope;
`name` is how an error calls the whole way. -/
def assignAt (name : Text) (entry : Entry) :
    List Text → Scope → Scope × Except ScopeError Unit
  | [], s => (s, .ok ())
  | [component], s => (s.insert component entry, .ok ())
  | component :: next :: rest, s =>
    match (s.get? component).getD (.scope .empty) with
    | .scope members =>
      let (members, result) := assignAt name entry (next :: rest) members
      (s.insert component (.scope members), result)
    | .record record members =>
      let (members, result) := assignAt name entry (next :: rest) members
      (s.insert component (.record record members), result)
    | .enumeration e =>
      if rest = [] then
        match assignEnumerator name entry e next with
        | .ok e => (s.insert component (.enumeration e), .ok ())
        | .error error => (s, .error error)
      else (s, .error (.notAScope name component (Entry.enumeration e).kind))
    | .value value => (s, .error (.notAScope name component value.kind))

def assign (s : Scope) (name : Text) (entry : Entry) : Scope × Except ScopeError Unit :=
  assignAt name entry (Name.path name) s

def modifyAt? (f : Entry → Entry) : List Text → Scope → Option Scope
  | [], _ => none
  | [component], s => do
    let entry ← s.get? component
    return s.insert component (f entry)
  | component :: next :: rest, s =>
    match s.get? component with
    | some (.scope members) => do
      let members ← modifyAt? f (next :: rest) members
      return s.insert component (.scope members)
    | some (.record record members) => do
      let members ← modifyAt? f (next :: rest) members
      return s.insert component (.record record members)
    | _ => none

def modify (s : Scope) (name : Text) (f : Entry → Entry) : Except ScopeError Scope :=
  match modifyAt? f (Name.path name) s with
  | some s => .ok s
  | none => .error (.notFound name)

/-- The scope after what is declared inside the scope or record under a name has been taken out:
that stays, without members. -/
def withoutMembers (s : Scope) (name : Text) : Scope :=
  (modifyAt? (·.withMembers .empty) (Name.path name) s).getD s

/-- Adds an enumerator to the enumeration under a name; none when there is no such
enumeration. -/
def addEnumerator? (s : Scope) (name enumerator : Text) (value : Int) :
    Option (Except EnumerationError Scope) := do
  let e ← s.enumeration? name
  match e.insert enumerator value with
  | .error error => return .error error
  | .ok e => return .ok (← modifyAt? (fun _ => .enumeration e) (Name.path name) s)

end ConstantDump.Scope
