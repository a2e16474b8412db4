import ConstantDump.Literal.Form
import ConstantDump.Literal.Types
import ConstantDump.Name.Template

/-!
The values of literals. Nothing is refused: a text that is no literal is its own value,
and a call of a type that is unknown or does not take the arguments keeps the arguments.
-/

namespace ConstantDump.Literal

/-- The type of a name, or else of the name without template arguments. -/
def typeOf? (types : Types) (name : Text) : Option Constructor :=
  types name <|>
    let plain := Name.withoutTemplate name
    if plain = name then none else types plain

def construct (types : Types) (typeName : Text) (arguments : List Value) : Value :=
  match typeOf? types typeName with
  | none => .untyped arguments
  | some type =>
    match type.call arguments with
    | .ok value => value
    | .error _ => .untyped arguments

/-- The value of a literal, with the given types for its calls. -/
def decode (types : Types) (raw : Text) : Value :=
  match form : Form.ofText raw with
  | .scalar value => value
  | .array elements =>
    .list <| elements.attach.map fun ⟨element, inside⟩ =>
      have : element.length < raw.length := length_part_lt (by rw [form]; exact inside)
      decode types element
  | .call typeName arguments =>
    construct types typeName <| arguments.attach.map fun ⟨argument, inside⟩ =>
      have : argument.length < raw.length := length_part_lt (by rw [form]; exact inside)
      decode types argument
  | .verbatim => .text raw
termination_by raw.length

/-- The value of a literal by its form. -/
theorem decode_eq (types : Types) (raw : Text) :
    decode types raw =
      match Form.ofText raw with
      | .scalar value => value
      | .array elements => .list (elements.map (decode types))
      | .call typeName arguments => construct types typeName (arguments.map (decode types))
      | .verbatim => .text raw := by
  rw [decode]
  split <;> simp_all

def decodeIn (s : Scope) (raw : Text) : Value := decode (.inScope s) raw

end ConstantDump.Literal
