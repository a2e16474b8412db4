import ConstantDump.Text.Alphabetic
import ConstantDump.Text.Numeric

/-!
Plain identifiers and the words that the language of the dump keeps for itself.
-/

namespace ConstantDump.Name

def startsIdentifier (c : Char) : Bool := c = '_' || Text.isAlphabetic c

def continuesIdentifier (c : Char) : Bool := startsIdentifier c || Text.isNumeric c

/-- A letter or `_`, then letters, digits and `_`. -/
def isIdentifier : Text → Bool
  | [] => false
  | c :: rest => startsIdentifier c && rest.all continuesIdentifier

def reservedWords : List String :=
  [ "alignas", "alignof", "and", "and_eq", "asm", "auto", "bitand", "bitor", "bool", "break",
    "case", "catch", "char", "char8_t", "char16_t", "char32_t", "class", "compl", "concept",
    "const", "consteval", "constexpr", "constinit", "const_cast", "continue", "co_await",
    "co_return", "co_yield", "decltype", "default", "delete", "do", "double", "dynamic_cast",
    "else", "enum", "explicit", "export", "extern", "false", "float", "for", "friend", "goto",
    "if", "inline", "int", "long", "mutable", "namespace", "new", "noexcept", "not", "not_eq",
    "nullptr", "operator", "or", "or_eq", "private", "protected", "public", "register",
    "reinterpret_cast", "requires", "return", "short", "signed", "sizeof", "static",
    "static_assert", "static_cast", "struct", "switch", "template", "this", "thread_local",
    "throw", "true", "try", "typedef", "typeid", "typename", "union", "unsigned", "using",
    "virtual", "void", "volatile", "wchar_t", "while", "xor", "xor_eq" ]

def isReserved (name : Text) : Bool := reservedWords.any fun word => word.toList == name

end ConstantDump.Name
