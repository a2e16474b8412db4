import ConstantDump.Encoding.Units
import ConstantDump.Value.Basic

/-!
The character types, whose values are printed as calls: one code unit a call, and
strings of such calls. A unit that is no character on its own is kept as bytes; a string
decodes each run of such bytes as a whole.
-/

namespace ConstantDump

inductive CharacterType
  /-- One code unit. -/
  | unit (encoding : Encoding)
  /-- One code point, or half of a UTF-16 pair. -/
  | wide
  | string (encoding : Encoding)
  | wideString
  deriving DecidableEq, Repr

inductive CharacterTypeError
  | arity (typeName : Text) (expected got : Nat)
  | notAUnit (typeName : Text) (value : Int)
  | argumentKind (typeName kind : Text)
  | noText (typeName : Text)
  deriving DecidableEq, Repr

def CharacterTypeError.message : CharacterTypeError → Text
  | .arity typeName expected got =>
    typeName ++ " takes ".toList ++ Text.ofNat expected ++ " argument, got ".toList ++
      Text.ofNat got
  | .notAUnit typeName value =>
    typeName ++ ": ".toList ++ Text.ofInt value ++ " is not a valid code unit".toList
  | .argumentKind typeName kind =>
    typeName ++ " cannot take a ".toList ++ kind ++ " argument".toList
  | .noText typeName => typeName ++ ": code units do not form valid text".toList

namespace CharacterType

def name : CharacterType → Text
  | .wide => "wchar_t".toList
  | .unit .utf8 => "char8_t".toList
  | .unit .utf16 => "char16_t".toList
  | .unit .utf32 => "char32_t".toList
  | .wideString => "wchar_t[]".toList
  | .string .utf8 => "char8_t[]".toList
  | .string .utf16 => "char16_t[]".toList
  | .string .utf32 => "char32_t[]".toList

def all : List CharacterType :=
  [.wide, .unit .utf8, .unit .utf16, .unit .utf32,
    .wideString, .string .utf8, .string .utf16, .string .utf32]

def ofName? (name : Text) : Option CharacterType := all.find? (·.name = name)

def singleInteger (t : CharacterType) : List Value → Except CharacterTypeError Int
  | [.int n] => .ok n
  | [value] => .error (.argumentKind t.name value.kind)
  | arguments => .error (.arity t.name 1 arguments.length)

def unitValue (t : CharacterType) (encoding : Encoding) (unit : Int) :
    Except CharacterTypeError Value :=
  match encoding.unitBytes? unit with
  | none => .error (.notAUnit t.name unit)
  | some bytes =>
    match encoding.decode bytes with
    | some [c] => .ok (.char c)
    | some contents => .ok (.str contents)
    | none => .ok (.bytes bytes)

def wideValue (n : Int) : Except CharacterTypeError Value :=
  match if 0 ≤ n then Text.scalar? n.toNat else none with
  | some c => .ok (.char c)
  | none =>
    if 0 ≤ n ∧ n < Int.pow 2 16 then .ok (.bytes (Encoding.toBytes 2 n.toNat))
    else .error (.notAUnit (name .wide) n)

def runText (t : CharacterType) (bytes : List UInt8) : Except CharacterTypeError Text :=
  match t with
  | .unit encoding | .string encoding =>
    match encoding.decode bytes with
    | some contents => .ok contents
    | none => .error (.noText t.name)
  | .wide | .wideString => .ok (Encoding.decodeWide bytes)

/-- The text of a string's parts after a run of bytes that is still open. -/
def joinAfter (t : CharacterType) (run : List UInt8) :
    List Value → Except CharacterTypeError Text
  | [] => t.runText run
  | .bytes more :: rest => t.joinAfter (run ++ more) rest
  | .char c :: rest => do return (← t.runText run) ++ c :: (← t.joinAfter [] rest)
  | .str contents :: rest => do return (← t.runText run) ++ contents ++ (← t.joinAfter [] rest)
  | value :: _ => .error (.argumentKind t.name value.kind)

def call (t : CharacterType) (arguments : List Value) : Except CharacterTypeError Value :=
  match t with
  | .unit encoding => do t.unitValue encoding (← t.singleInteger arguments)
  | .wide => do wideValue (← t.singleInteger arguments)
  | .string _ | .wideString => do return .str (← t.joinAfter [] arguments)

end CharacterType

end ConstantDump
