import ConstantDump.Name.Operator

/-!
The components of a qualified name: the parts between separators `::` outside brackets
and template arguments. `components` begins anew behind each separator, `separators` goes
through the name once. Main statement: joined with the separator, the components are the
name again.
-/

namespace ConstantDump.Name

def separator : Text := [':', ':']

/-- How deep a scan is inside brackets `()[]{}` and inside template arguments. Neither
goes below zero. -/
structure Depth where
  brackets : Nat
  template : Nat
  deriving DecidableEq, Repr

def Depth.zero : Depth := ⟨0, 0⟩

def Depth.next (d : Depth) (before : Text) (c : Char) : Depth :=
  if c = '(' || c = '[' || c = '{' then { d with brackets := d.brackets + 1 }
  else if c = ')' || c = ']' || c = '}' then { d with brackets := d.brackets - 1 }
  else if c = '<' && !followsOperator before then { d with template := d.template + 1 }
  else if c = '>' && !followsOperator before then { d with template := d.template - 1 }
  else d

/-- The components from inside one whose beginning `before` has been read. A component
begins outside everything: it is scanned like a name of its own. -/
def componentsFrom (before : Text) (d : Depth) : Text → List Text
  | [] => [before.reverse]
  | [c] => [(c :: before).reverse]
  | c :: next :: rest =>
    if c = ':' ∧ next = ':' ∧ d = .zero then before.reverse :: componentsFrom [] .zero rest
    else componentsFrom (c :: before) (d.next before c) (next :: rest)

/-- The components of a name; there is at least one. -/
def components (name : Text) : List Text := componentsFrom [] .zero name

def join (components : List Text) : Text := Text.join separator components

/-- The first component, and the name that follows it, if any. -/
def splitFirst (name : Text) : Text × Option Text :=
  match components name with
  | [] => (name, none)
  | [first] => (first, none)
  | first :: next :: rest => (first, some (join (next :: rest)))

/-- The name of the enclosing scope, if any, and the last component. -/
def splitLast (name : Text) : Option Text × Text :=
  let parts := components name
  let last := parts.getLast?.getD name
  if parts.length ≤ 1 then (none, last) else (some (join parts.dropLast), last)

/-- The places of the separators outside everything. Behind a separator the scan goes on as it
is: `before` is all of the name that has been read. -/
def separatorsFrom (before : Text) (d : Depth) : Text → List Nat
  | [] => []
  | [_] => []
  | c :: next :: rest =>
    if c = ':' ∧ next = ':' ∧ d = .zero then
      before.length :: separatorsFrom (next :: c :: before) d rest
    else separatorsFrom (c :: before) (d.next before c) (next :: rest)

def separators (name : Text) : List Nat := separatorsFrom [] .zero name

theorem componentsFrom_ne_nil (before : Text) (d : Depth) (t : Text) :
    componentsFrom before d t ≠ [] := by
  fun_induction componentsFrom before d t <;> simp_all

theorem components_ne_nil (name : Text) : components name ≠ [] :=
  componentsFrom_ne_nil _ _ _

theorem join_cons_of_ne_nil (c : Text) {cs : List Text} (h : cs ≠ []) :
    join (c :: cs) = c ++ separator ++ join cs := by
  cases cs with
  | nil => exact absurd rfl h
  | cons d cs => simp [join, Text.join]

theorem join_componentsFrom (before : Text) (d : Depth) (t : Text) :
    join (componentsFrom before d t) = before.reverse ++ t := by
  fun_induction componentsFrom before d t with
  | case1 => simp [join, Text.join]
  | case2 => simp [join, Text.join]
  | case3 before d c next rest h ih =>
    obtain ⟨rfl, rfl, -⟩ := h
    rw [join_cons_of_ne_nil _ (componentsFrom_ne_nil _ _ _), ih]
    simp [separator]
  | case4 before d c next rest h ih => simp [ih]

/-- Joining undoes splitting. -/
theorem join_components (name : Text) : join (components name) = name := by
  simp [components, join_componentsFrom]

end ConstantDump.Name
