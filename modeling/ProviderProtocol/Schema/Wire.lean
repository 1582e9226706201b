import ProviderProtocol.Error
import ProviderProtocol.Schema.Basic
import ProviderProtocol.Wire.Enumeration
/-!
# Schemas on the wire

On the wire a schema is a tree of messages: types are descriptors in bytes, modes are three flags, nesting is a number,
an absent description is empty and every nested block repeats the version of the schema.

`Schema.toWire` writes that form.  `Schema.ofWire` reads any such message: it refuses flags that are no mode, bytes
that are no type, a nesting number out of use and item counts that are no unsigned 32-bit number, in the order of the
message, attributes before blocks and a block's own numbers before its inner block.  A missing block is an empty one;
a repeated name keeps its first position and takes its last definition.
-/
namespace ProviderProtocol

structure WireAttribute where
  name : String
  ty : Bytes
  description : String
  required : Bool
  optional : Bool
  computed : Bool
  sensitive : Bool
  deprecated : Bool

structure WireNesting where
  name : String
  mode : Int
  minItems : Int
  maxItems : Int

structure WireBlock where
  version : Int64
  attributes : List WireAttribute
  blocks : List (WireNesting × Option WireBlock)
  description : String
  deprecated : Bool

structure WireSchema where
  version : Int64
  block : Option WireBlock

structure WireIdentityAttribute where
  name : String
  ty : Bytes
  requiredForImport : Bool
  optionalForImport : Bool
  description : String

structure WireIdentitySchema where
  version : Int64
  attributes : List WireIdentityAttribute

/-- An empty text on the wire is an absent one. -/
def textOfWire (s : String) : Option String := if s = "" then none else some s

/-! ## Modes and nesting -/

namespace AttributeMode

/-- The mode of the flags required, optional and computed. -/
def ofFlags? : Bool → Bool → Bool → Option AttributeMode
  | true, false, false => some .required
  | false, true, false => some .optional
  | false, false, true => some .computed
  | false, true, true  => some .optionalComputed
  | _, _, _            => none

end AttributeMode

namespace NestingMode

def number : NestingMode → Int
  | .single => 1
  | .list   => 2
  | .set    => 3
  | .map    => 4
  | .group  => 5

def ofNumber? (n : Int) : Option NestingMode :=
  if n = 1 then some .single
  else if n = 2 then some .list
  else if n = 3 then some .set
  else if n = 4 then some .map
  else if n = 5 then some .group
  else none

/-- Schemas are read with the numbers that have a name, but for the one of a nesting that was not set. -/
theorem isSome_ofNumber?_iff (n : Int) :
    (ofNumber? n).isSome = true ↔ n ≠ 0 ∧ (Enumeration.nestings.nameOf? n).isSome = true := by
  simp only [Enumeration.nestings, Enumeration.nameOf?, ofNumber?]
  grind

end NestingMode

/-! ## Writing -/

def Attribute.toWire (name : String) (a : Attribute) : WireAttribute :=
  ⟨name, a.ty.descriptorBytes, a.description.getD "", a.isRequired, a.isOptional, a.isComputed, a.sensitive,
    a.deprecated⟩

def Nesting.toWire (name : String) (n : Nesting) : WireNesting :=
  ⟨name, n.mode.number, n.minItems.toNat, n.maxItems.toNat⟩

namespace Block

mutual

def toWire (version : Int64) : Block → WireBlock
  | ⟨attributes, blocks, description, deprecated⟩ =>
    ⟨version, attributes.map fun (name, a) => a.toWire name, blocksToWire version blocks, description.getD "",
      deprecated⟩

def blocksToWire (version : Int64) : List (String × Nesting × Block) → List (WireNesting × Option WireBlock)
  | []                             => []
  | (name, nesting, inner) :: rest =>
    (nesting.toWire name, some (inner.toWire version)) :: blocksToWire version rest

end

end Block

def Schema.toWire (s : Schema) : WireSchema := ⟨s.version, some (s.block.toWire s.version)⟩

def IdentityAttribute.toWire (name : String) (a : IdentityAttribute) : WireIdentityAttribute :=
  ⟨name, a.ty.descriptorBytes, a.requirement == .requiredForImport, a.requirement == .optionalForImport,
    a.description.getD ""⟩

def IdentitySchema.toWire (s : IdentitySchema) : WireIdentitySchema :=
  ⟨s.version, s.attributes.map fun (name, a) => a.toWire name⟩

/-! ## Reading -/

def Attribute.ofWire (w : WireAttribute) : Except ProviderError Attribute :=
  match AttributeMode.ofFlags? w.required w.optional w.computed with
  | none      => .error (.invalidType (.attributeMode w.name))
  | some mode => do
    return ⟨← Ty.ofDescriptorBytes w.ty, mode, w.sensitive, w.deprecated, textOfWire w.description⟩

/-- An item count, which has 32 bits and no sign. -/
def itemCount (name : String) (n : Int) : Except ProviderError UInt32 :=
  if 0 ≤ n ∧ n ≤ 4294967295 then .ok (UInt32.ofNat n.toNat) else .error (.invalidType (.itemCount name n))

def Nesting.ofWire (w : WireNesting) : Except ProviderError Nesting :=
  match NestingMode.ofNumber? w.mode with
  | none      => .error (.invalidType (.nestingMode w.name w.mode))
  | some mode => do return ⟨mode, ← itemCount w.name w.minItems, ← itemCount w.name w.maxItems⟩

/-- The table of definitions in the order of a message. -/
def tableOfWire (definitions : List (String × α)) : List (String × α) :=
  definitions.foldl (fun t e => Table.put e.1 e.2 t) []

def attributesOfWire : List WireAttribute → Except ProviderError (List (String × Attribute))
  | []        => .ok []
  | w :: rest => do
    let a ← Attribute.ofWire w
    let as ← attributesOfWire rest
    pure ((w.name, a) :: as)

namespace Block

mutual

def ofWire : WireBlock → Except ProviderError Block
  | ⟨_, attributes, blocks, description, deprecated⟩ => do
    let as ← attributesOfWire attributes
    let bs ← blocksOfWire blocks
    pure ⟨tableOfWire as, tableOfWire bs, textOfWire description, deprecated⟩

def blocksOfWire : List (WireNesting × Option WireBlock) → Except ProviderError (List (String × Nesting × Block))
  | []                => .ok []
  | (w, inner) :: rest => do
    let nesting ← Nesting.ofWire w
    let b ← match inner with
      | some block => ofWire block
      | none       => pure empty
    let bs ← blocksOfWire rest
    pure ((w.name, nesting, b) :: bs)

end

end Block

def Schema.ofWire (w : WireSchema) : Except ProviderError Schema := do
  match w.block with
  | some block => return ⟨w.version, ← Block.ofWire block⟩
  | none       => return ⟨w.version, .empty⟩

def IdentityAttribute.ofWire (w : WireIdentityAttribute) : Except ProviderError IdentityAttribute := do
  return ⟨← Ty.ofDescriptorBytes w.ty, if w.optionalForImport then .optionalForImport else .requiredForImport,
    textOfWire w.description⟩

def identityAttributesOfWire : List WireIdentityAttribute → Except ProviderError (List (String × IdentityAttribute))
  | []        => .ok []
  | w :: rest => do
    let a ← IdentityAttribute.ofWire w
    let as ← identityAttributesOfWire rest
    pure ((w.name, a) :: as)

def IdentitySchema.ofWire (w : WireIdentitySchema) : Except ProviderError IdentitySchema := do
  return ⟨w.version, tableOfWire (← identityAttributesOfWire w.attributes)⟩

end ProviderProtocol
