import ProviderProtocol.Table
/-!
# Types of values

A type is primitive, a collection of one element type, an object with named attributes or a tuple.  The attributes of
an object are a table in ascending order of their names, which `Canonical` says at every depth; `ofAttributes` builds
such an object type from attributes in any order.
-/
namespace ProviderProtocol

inductive Ty
  | string
  | number
  | bool
  | list (elem : Ty)
  | set (elem : Ty)
  | map (elem : Ty)
  | object (attrs : List (String × Ty))
  | tuple (elems : List Ty)

namespace Ty

/-- An object type; of several attributes with one name the last counts. -/
def ofAttributes (attrs : List (String × Ty)) : Ty := .object (Table.ofList attrs)

def isPrimitive : Ty → Bool
  | .string | .number | .bool => true
  | _                         => false

/-- The element type of a list, set or map. -/
def element? : Ty → Option Ty
  | .list t | .set t | .map t => some t
  | _                         => none

def attributes? : Ty → Option (List (String × Ty))
  | .object attrs => some attrs
  | _             => none

def elements? : Ty → Option (List Ty)
  | .tuple elems => some elems
  | _            => none

/-! ## Canonical types -/

mutual

/-- Every object type within lists its attributes in ascending order, each once. -/
def Canonical : Ty → Prop
  | .string | .number | .bool => True
  | .list t | .set t | .map t => t.Canonical
  | .object attrs             => Table.Ascending attrs ∧ CanonicalAttrs attrs
  | .tuple elems              => CanonicalElems elems

def CanonicalAttrs : List (String × Ty) → Prop
  | []             => True
  | (_, t) :: rest => t.Canonical ∧ CanonicalAttrs rest

def CanonicalElems : List Ty → Prop
  | []        => True
  | t :: rest => t.Canonical ∧ CanonicalElems rest

end

/-! ## Equality -/

mutual

def beq : Ty → Ty → Bool
  | .string, .string     => true
  | .number, .number     => true
  | .bool, .bool         => true
  | .list a, .list b     => a.beq b
  | .set a, .set b       => a.beq b
  | .map a, .map b       => a.beq b
  | .object a, .object b => beqAttrs a b
  | .tuple a, .tuple b   => beqElems a b
  | _, _                 => false

def beqAttrs : List (String × Ty) → List (String × Ty) → Bool
  | [], []                     => true
  | (m, s) :: as, (n, t) :: bs => m == n && s.beq t && beqAttrs as bs
  | _, _                       => false

def beqElems : List Ty → List Ty → Bool
  | [], []           => true
  | s :: as, t :: bs => s.beq t && beqElems as bs
  | _, _             => false

end

mutual

theorem beq_iff_eq : ∀ a b : Ty, a.beq b = true ↔ a = b
  | .string, b => by cases b <;> simp [beq]
  | .number, b => by cases b <;> simp [beq]
  | .bool, b => by cases b <;> simp [beq]
  | .list a, b => by cases b <;> simp [beq, beq_iff_eq a]
  | .set a, b => by cases b <;> simp [beq, beq_iff_eq a]
  | .map a, b => by cases b <;> simp [beq, beq_iff_eq a]
  | .object a, b => by cases b <;> simp [beq, beqAttrs_iff_eq a]
  | .tuple a, b => by cases b <;> simp [beq, beqElems_iff_eq a]

theorem beqAttrs_iff_eq : ∀ a b : List (String × Ty), beqAttrs a b = true ↔ a = b
  | [], b => by cases b <;> simp [beqAttrs]
  | (m, s) :: as, b => by
    cases b with
    | nil => simp [beqAttrs]
    | cons t bs => obtain ⟨n, t⟩ := t; simp [beqAttrs, beq_iff_eq s, beqAttrs_iff_eq as]

theorem beqElems_iff_eq : ∀ a b : List Ty, beqElems a b = true ↔ a = b
  | [], b => by cases b <;> simp [beqElems]
  | s :: as, b => by cases b <;> simp [beqElems, beq_iff_eq s, beqElems_iff_eq as]

end

instance : DecidableEq Ty := fun a b => decidable_of_iff (a.beq b = true) (beq_iff_eq a b)

/-! ## Text -/

mutual

def text : Ty → String
  | .string       => "string"
  | .number       => "number"
  | .bool         => "bool"
  | .list t       => "list(" ++ t.text ++ ")"
  | .set t        => "set(" ++ t.text ++ ")"
  | .map t        => "map(" ++ t.text ++ ")"
  | .object attrs => "object(\x7b" ++ ", ".intercalate (attrTexts attrs) ++ "\x7d)"
  | .tuple elems  => "tuple([" ++ ", ".intercalate (elemTexts elems) ++ "])"

def attrTexts : List (String × Ty) → List String
  | []                => []
  | (name, t) :: rest => (name ++ "=" ++ t.text) :: attrTexts rest

def elemTexts : List Ty → List String
  | []        => []
  | t :: rest => t.text :: elemTexts rest

end

end Ty

end ProviderProtocol
