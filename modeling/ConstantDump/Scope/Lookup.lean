import ConstantDump.Name.Normal
import ConstantDump.Scope.Basic

/-!
Finding what a qualified name stands for. The way goes from component to component
through scopes and records; an enumeration can only be the last but one.
-/

namespace ConstantDump.Scope

def find? : List Text → Scope → Option Found
  | [], _ => none
  | [component], s => (s.get? component).map .entry
  | component :: next :: rest, s =>
    match s.get? component with
    | some (.scope members) => find? (next :: rest) members
    | some (.record _ members) => find? (next :: rest) members
    | some (.enumeration e) =>
      if rest = [] then (e.valueOf? next).map .enumerator else none
    | _ => none

def lookup? (s : Scope) (name : Text) : Option Found := find? (Name.path name) s

def lookup (s : Scope) (name : Text) : Except ScopeError Found :=
  match s.lookup? name with
  | some found => .ok found
  | none => .error (.notFound name)

def resolves (s : Scope) (name : Text) : Bool := (s.lookup? name).isSome

def stored? (s : Scope) (name : Text) : Option Entry := s.lookup? name >>= Found.stored?

def value? (s : Scope) (name : Text) : Option Value := s.stored? name >>= Entry.value?

def enumeration? (s : Scope) (name : Text) : Option Enumeration :=
  s.stored? name >>= Entry.enumeration?

def record? (s : Scope) (name : Text) : Option Record := s.stored? name >>= Entry.record?

def scope? (s : Scope) (name : Text) : Option Scope := s.stored? name >>= Entry.scope?

def members? (s : Scope) (name : Text) : Option Scope := s.stored? name >>= Entry.members?

end ConstantDump.Scope
