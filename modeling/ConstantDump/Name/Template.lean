import ConstantDump.Name.Operator

/-!
Names without their template arguments.
-/

namespace ConstantDump.Name

/-- What is outside template arguments, from `depth` lists of them on. -/
def withoutTemplateFrom (before : Text) (depth : Nat) : Text → Text
  | [] => []
  | c :: rest =>
    if c = '<' && !followsOperator before then
      withoutTemplateFrom (c :: before) (depth + 1) rest
    else if c = '>' && !followsOperator before && 0 < depth then
      withoutTemplateFrom (c :: before) (depth - 1) rest
    else if depth = 0 then c :: withoutTemplateFrom (c :: before) depth rest
    else withoutTemplateFrom (c :: before) depth rest

/-- The name without template argument lists. A `>` that closes none is kept, and a list
that nothing closes reaches to the end. -/
def withoutTemplate (name : Text) : Text := withoutTemplateFrom [] 0 name

end ConstantDump.Name
