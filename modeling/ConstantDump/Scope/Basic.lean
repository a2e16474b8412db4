import ConstantDump.Enumeration
import ConstantDump.Record.Basic

/-!
Scopes: named values, enumerations, records and further scopes, in the order in which
their names came first.
-/

namespace ConstantDump

/-- What a scope holds under one name. -/
inductive Entry
  | value (value : Value)
  | enumeration (enumeration : Enumeration)
  /-- A record, with what is declared inside it. -/
  | record (record : Record) (members : OrderedMap Entry)
  | scope (members : OrderedMap Entry)
  deriving Repr

abbrev Scope := OrderedMap Entry

namespace Entry

def value? : Entry → Option Value
  | .value v => some v
  | _ => none

def enumeration? : Entry → Option Enumeration
  | .enumeration e => some e
  | _ => none

def record? : Entry → Option Record
  | .record r _ => some r
  | _ => none

def scope? : Entry → Option Scope
  | .scope members => some members
  | _ => none

def members? : Entry → Option Scope
  | .scope members => some members
  | .record _ members => some members
  | _ => none

def withMembers : Entry → Scope → Entry
  | .scope _, members => .scope members
  | .record r _, members => .record r members
  | entry, _ => entry

def integral? (entry : Entry) : Option Int := entry.value? >>= Value.integral?

def kind : Entry → Text
  | .value v => v.kind
  | .enumeration _ => "enum".toList
  | .record _ _ => "record".toList
  | .scope _ => "scope".toList

end Entry

inductive Found
  | entry (entry : Entry)
  /-- An enumerator, which is no entry of its own. -/
  | enumerator (value : Int)
  deriving Repr

namespace Found

def stored? : Found → Option Entry
  | .entry e => some e
  | .enumerator _ => none

def integral? : Found → Option Int
  | .entry e => e.integral?
  | .enumerator n => some n

end Found

inductive ScopeError
  | notFound (name : Text)
  /-- A component on the way is a value, or an enumeration too early on the way. -/
  | notAScope (name component kind : Text)
  | notIntegral (name kind : Text)
  | enumeration (error : EnumerationError)
  deriving DecidableEq, Repr

def ScopeError.message : ScopeError → Text
  | .notFound name => "name not found: ".toList ++ name
  | .notAScope name component kind =>
    "cannot assign ".toList ++ name ++ ": ".toList ++ component ++ " is a ".toList ++ kind ++
      ", not a scope".toList
  | .notIntegral name kind =>
    "cannot assign ".toList ++ name ++
      ": enumerator values must be integral, got ".toList ++ kind
  | .enumeration error => error.message

end ConstantDump
