import ConstantDump.Encoding.Utf8

/-!
Output in fragments. The fragments make up one text; written to a device one after
another, they stop at the first one that the device refuses.
-/

namespace ConstantDump

inductive Fragment
  | text (t : Text)
  | newline
  | indent (columns : Nat)
  deriving DecidableEq, Repr

namespace Fragment

def toText : Fragment → Text
  | .text t => t
  | .newline => ['\n']
  | .indent columns => List.replicate columns ' '

def textOf (fragments : List Fragment) : Text := fragments.flatMap toText

/-- What is written to a device, piece by piece: a text as a whole unless it is empty, an
indent one space after another. -/
def writes : Fragment → List (List UInt8)
  | .text t => if t = [] then [] else [Utf8.encode t]
  | .newline => [Utf8.encode ['\n']]
  | .indent columns => List.replicate columns (Utf8.encode [' '])

end Fragment

/-- Something to write bytes to, with states `σ` and errors `ε`. A write takes all of its
bytes or fails. -/
structure Device (σ ε : Type) where
  write : List UInt8 → σ → σ × Option ε
  flush : σ → σ × Option ε

/-- Output to a device, with the first error. -/
structure Emission (σ ε : Type) where
  state : σ
  error : Option ε

namespace Emission

variable {σ ε : Type}

def new (state : σ) : Emission σ ε := ⟨state, none⟩

/-- Writes bytes, unless a write failed before. -/
def write (device : Device σ ε) (emission : Emission σ ε) (bytes : List UInt8) :
    Emission σ ε :=
  match emission.error with
  | some _ => emission
  | none =>
    let (state, error) := device.write bytes emission.state
    ⟨state, error⟩

def emit (device : Device σ ε) (emission : Emission σ ε) (fragment : Fragment) :
    Emission σ ε :=
  fragment.writes.foldl (write device) emission

def emitAll (device : Device σ ε) (emission : Emission σ ε) (fragments : List Fragment) :
    Emission σ ε :=
  fragments.foldl (emit device) emission

/-- The device at the end, and the error if there is one: it is flushed, unless a write
failed before. -/
def close (device : Device σ ε) (emission : Emission σ ε) : σ × Option ε :=
  match emission.error with
  | some error => (emission.state, some error)
  | none => device.flush emission.state

/-- The device at the end, or the first error. -/
def finish (device : Device σ ε) (emission : Emission σ ε) : Except ε σ :=
  match emission.close device with
  | (state, none) => .ok state
  | (_, some error) => .error error

end Emission

end ConstantDump
