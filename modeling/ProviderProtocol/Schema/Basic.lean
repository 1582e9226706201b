import ProviderProtocol.Path
/-!
# Schemas

A schema has a version and a root block; a block has attributes and nested blocks, both in the order of their
definition.  A nested block stands alone (single, group) or many times (list, set, map), which its `Nesting` says.

The values of a schema are objects with one attribute for each attribute and each nested block (`Schema.valueType`);
where both have a name, the block counts.  `Schema.attributeAt?` finds the attribute that a path of such a value
addresses: name steps choose an attribute before a block of that name, the step that selects one of many blocks is
skipped, and the types of attributes are not entered.
-/
namespace ProviderProtocol

/-! ## Attributes -/

/-- Who sets an attribute: the configuration, the provider or either. -/
inductive AttributeMode
  | required
  | optional
  | computed
  | optionalComputed
  deriving DecidableEq

structure Attribute where
  ty : Ty
  mode : AttributeMode
  sensitive : Bool
  deprecated : Bool
  description : Option String
  deriving DecidableEq

namespace Attribute

def new (ty : Ty) (mode : AttributeMode) : Attribute := ⟨ty, mode, false, false, none⟩

def required (ty : Ty) : Attribute := new ty .required

def optional (ty : Ty) : Attribute := new ty .optional

def computed (ty : Ty) : Attribute := new ty .computed

def optionalComputed (ty : Ty) : Attribute := new ty .optionalComputed

def describe (a : Attribute) (text : String) : Attribute := { a with description := some text }

def markSensitive (a : Attribute) : Attribute := { a with sensitive := true }

def markDeprecated (a : Attribute) : Attribute := { a with deprecated := true }

def isRequired (a : Attribute) : Bool := a.mode == .required

def isOptional (a : Attribute) : Bool := a.mode == .optional || a.mode == .optionalComputed

def isComputed (a : Attribute) : Bool := a.mode == .computed || a.mode == .optionalComputed

end Attribute

/-! ## Blocks -/

inductive NestingMode
  | single
  | group
  | list
  | set
  | map
  deriving DecidableEq

/-- How a block is nested; a maximum of zero is no limit. -/
structure Nesting where
  mode : NestingMode
  minItems : UInt32
  maxItems : UInt32
  deriving DecidableEq

structure Block where
  attributes : List (String × Attribute)
  blocks : List (String × Nesting × Block)
  description : Option String
  deprecated : Bool

namespace Nesting

/-- A block that stands alone may occur once, any other without limit. -/
def new (mode : NestingMode) : Nesting :=
  ⟨mode, 0, if mode = .single ∨ mode = .group then 1 else 0⟩

def wrap (n : Nesting) (ty : Ty) : Ty :=
  match n.mode with
  | .single | .group => ty
  | .list            => .list ty
  | .set             => .set ty
  | .map             => .map ty

end Nesting

namespace Block

def empty : Block := ⟨[], [], none, false⟩

def addAttribute (b : Block) (name : String) (a : Attribute) : Block :=
  { b with attributes := Table.put name a b.attributes }

def addBlock (b : Block) (name : String) (nesting : Nesting) (inner : Block) : Block :=
  { b with blocks := Table.put name (nesting, inner) b.blocks }

def describe (b : Block) (text : String) : Block := { b with description := some text }

def attributeTypes (attrs : List (String × Attribute)) : List (String × Ty) :=
  attrs.map fun (name, a) => (name, a.ty)

mutual

def valueType : Block → Ty
  | ⟨attributes, blocks, _, _⟩ => .ofAttributes (attributeTypes attributes ++ blockTypes blocks)

def blockTypes : List (String × Nesting × Block) → List (String × Ty)
  | []                           => []
  | (name, nesting, inner) :: rest => (name, nesting.wrap inner.valueType) :: blockTypes rest

end

/-- Does this step select one of the blocks nested so? -/
def selects : NestingMode → Step → Bool
  | .list, .index _  => true
  | .set, .element _ => true
  | .map, .key _     => true
  | _, _             => false

def attributeAt? : Block → Path → Option Attribute
  | b, .attribute name :: steps =>
    match Table.find? name b.attributes with
    | some a => if steps.isEmpty then some a else none
    | none   =>
      match Table.find? name b.blocks with
      | none                  => none
      | some (nesting, inner) =>
        if nesting.mode = .single ∨ nesting.mode = .group then inner.attributeAt? steps
        else match steps with
          | step :: rest => if selects nesting.mode step then inner.attributeAt? rest else none
          | []           => none
  | _, _ => none

end Block

/-! ## Schemas -/

structure Schema where
  version : Int64
  block : Block

namespace Schema

def new (version : Int64) : Schema := ⟨version, .empty⟩

def addAttribute (s : Schema) (name : String) (a : Attribute) : Schema :=
  { s with block := s.block.addAttribute name a }

def addBlock (s : Schema) (name : String) (nesting : Nesting) (inner : Block) : Schema :=
  { s with block := s.block.addBlock name nesting inner }

def valueType (s : Schema) : Ty := s.block.valueType

def attributeAt? (s : Schema) (path : Path) : Option Attribute := s.block.attributeAt? path

end Schema

/-! ## Identity schemas

What identifies a resource has a flat schema of its own: attributes that an import must or may give. -/

inductive ImportRequirement
  | requiredForImport
  | optionalForImport
  deriving DecidableEq

structure IdentityAttribute where
  ty : Ty
  requirement : ImportRequirement
  description : Option String
  deriving DecidableEq

structure IdentitySchema where
  version : Int64
  attributes : List (String × IdentityAttribute)
  deriving DecidableEq

namespace IdentitySchema

def new (version : Int64) : IdentitySchema := ⟨version, []⟩

def addAttribute (s : IdentitySchema) (name : String) (a : IdentityAttribute) : IdentitySchema :=
  { s with attributes := Table.put name a s.attributes }

def valueType (s : IdentitySchema) : Ty := .ofAttributes (s.attributes.map fun (name, a) => (name, a.ty))

end IdentitySchema

end ProviderProtocol
