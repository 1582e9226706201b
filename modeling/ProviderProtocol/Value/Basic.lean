import ProviderProtocol.Number.Basic
import ProviderProtocol.Text.Quoted
import ProviderProtocol.Ty.Basic
/-!
# Values

A value carries its type and is null, unknown (to be settled only when the change is applied) or known with a
content.  Lists, sets and tuples share one form of content and so do maps and objects; the type tells them apart.
Entries of maps and objects are ascending tables.

Nothing here forces the content to agree with the type: that is `Value.WellFormed` (in `Value.Shape`), which every
operation of the library keeps.
-/
namespace ProviderProtocol

mutual

inductive Value
  | null (ty : Ty)
  | unknown (ty : Ty)
  | known (ty : Ty) (content : Content)

inductive Content
  | string (s : String)
  | number (n : Number)
  | bool (b : Bool)
  | list (items : List Value)
  | map (entries : List (String × Value))

end

namespace Value

def ty : Value → Ty
  | .null t    => t
  | .unknown t => t
  | .known t _ => t

def isNull : Value → Bool
  | .null _ => true
  | _       => false

def isUnknown : Value → Bool
  | .unknown _ => true
  | _          => false

/-- Null counts as known. -/
def isKnown (v : Value) : Bool := !v.isUnknown

def content? : Value → Option Content
  | .known _ c => some c
  | _          => none

def string? : Value → Option String
  | .known _ (.string s) => some s
  | _                    => none

def number? : Value → Option Number
  | .known _ (.number n) => some n
  | _                    => none

def bool? : Value → Option Bool
  | .known _ (.bool b) => some b
  | _                  => none

/-- The children of a known list, set or tuple. -/
def items? : Value → Option (List Value)
  | .known _ (.list xs) => some xs
  | _                   => none

/-- The children of a known map or object. -/
def entries? : Value → Option (List (String × Value))
  | .known _ (.map es) => some es
  | _                  => none

mutual

/-- Neither this value nor any descendant is unknown. -/
def fullyKnown : Value → Bool
  | .null _              => true
  | .unknown _           => false
  | .known _ (.list xs)  => allFullyKnown xs
  | .known _ (.map es)   => entriesFullyKnown es
  | .known _ _           => true

def allFullyKnown : List Value → Bool
  | []      => true
  | v :: vs => v.fullyKnown && allFullyKnown vs

def entriesFullyKnown : List (String × Value) → Bool
  | []           => true
  | (_, v) :: es => v.fullyKnown && entriesFullyKnown es

end

end Value

/-! ## Text -/

mutual

def Value.text : Value → String
  | .null _    => "null"
  | .unknown _ => "(unknown)"
  | .known _ c => c.text

def Content.text : Content → String
  | .string s => Text.quote s
  | .number n => n.text
  | .bool b   => if b then "true" else "false"
  | .list xs  => "[" ++ ", ".intercalate (Content.itemTexts xs) ++ "]"
  | .map es   => "\x7b" ++ ", ".intercalate (Content.entryTexts es) ++ "\x7d"

def Content.itemTexts : List Value → List String
  | []      => []
  | v :: vs => v.text :: Content.itemTexts vs

def Content.entryTexts : List (String × Value) → List String
  | []             => []
  | (key, v) :: es => (key ++ " = " ++ v.text) :: Content.entryTexts es

end

end ProviderProtocol
