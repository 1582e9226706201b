import ProviderProtocol.Json.Reader
import ProviderProtocol.Json.Record
import ProviderProtocol.Schema.Basic
import ProviderProtocol.Ty.Descriptor
/-!
# Schemas as JSON

A schema document is an object; attributes and blocks are objects whose members are the definitions in order, where a
repeated name keeps its first position and takes its last definition.  Unknown members are ignored, a repeated field
is refused, and an absent one has its default: version 0, mode `optional`, nesting `single`, no minimum and no
maximum, `false` and no description.  `null` stands for an absent description only.

A nested block is written with the fields of its inner block beside its nesting.  For that reason, and unlike
attributes and identity schemas, a schema and a nested block are never written as arrays, and their whole document is
read before any field is: it must be readable to the last leaf.
-/
namespace ProviderProtocol

open Json (Document)

def Number.ofInt64 (n : Int64) : Number :=
  .int n.toInt ⟨Int64.le_toInt n, by have := Int64.toInt_lt n; omega⟩

def Number.ofUInt32 (n : UInt32) : Number :=
  .int n.toNat ⟨by omega, by have := n.toNat_lt; omega⟩

namespace AttributeMode

def name : AttributeMode → String
  | .required         => "required"
  | .optional         => "optional"
  | .computed         => "computed"
  | .optionalComputed => "optional_computed"

def ofName? (s : String) : Option AttributeMode :=
  [required, optional, computed, optionalComputed].find? (·.name == s)

end AttributeMode

namespace NestingMode

def name : NestingMode → String
  | .single => "single"
  | .group  => "group"
  | .list   => "list"
  | .set    => "set"
  | .map    => "map"

def ofName? (s : String) : Option NestingMode := [single, group, list, set, map].find? (·.name == s)

end NestingMode

namespace ImportRequirement

def name : ImportRequirement → String
  | .requiredForImport => "required_for_import"
  | .optionalForImport => "optional_for_import"

def ofName? (s : String) : Option ImportRequirement :=
  [requiredForImport, optionalForImport].find? (·.name == s)

end ImportRequirement

/-! ## Writing -/

/-- The member for a description, if there is one. -/
def descriptionMember : Option String → List (String × Json)
  | some text => [("description", .string text)]
  | none      => []

def Attribute.toJson (a : Attribute) : Json :=
  .object ([("type", a.ty.descriptor), ("mode", .string a.mode.name), ("sensitive", .bool a.sensitive),
    ("deprecated", .bool a.deprecated)] ++ descriptionMember a.description)

/-- A member that is left out where it would be an empty object. -/
def tableMember (name : String) (members : List (String × Json)) : List (String × Json) :=
  if members.isEmpty then [] else [(name, .object members)]

namespace Block

mutual

/-- The fields of a block, to which a schema and a nested block add their own. -/
def jsonFields : Block → List (String × Json)
  | ⟨attributes, blocks, description, deprecated⟩ =>
    tableMember "attributes" (attributes.map fun (name, a) => (name, a.toJson))
      ++ tableMember "blocks" (jsonBlocks blocks)
      ++ descriptionMember description ++ [("deprecated", .bool deprecated)]

def jsonBlocks : List (String × Nesting × Block) → List (String × Json)
  | []                             => []
  | (name, nesting, inner) :: rest =>
    (name, .object (inner.jsonFields ++ [("nesting_mode", .string nesting.mode.name),
      ("min_items", .number (.ofUInt32 nesting.minItems)), ("max_items", .number (.ofUInt32 nesting.maxItems))]))
      :: jsonBlocks rest

end

end Block

def Schema.toJson (s : Schema) : Json :=
  .object (("version", .number (.ofInt64 s.version)) :: s.block.jsonFields)

def IdentityAttribute.toJson (a : IdentityAttribute) : Json :=
  .object ([("type", a.ty.descriptor), ("import", .string a.requirement.name)] ++ descriptionMember a.description)

def IdentitySchema.toJson (s : IdentitySchema) : Json :=
  .object [("version", .number (.ofInt64 s.version)),
    ("attributes", .object (s.attributes.map fun (name, a) => (name, a.toJson)))]

/-! ## Reading -/

/-- The type of a descriptor with at most `depth` nested arrays and objects. -/
def Ty.ofDocument? (depth : Nat) (d : Document) : Option Ty :=
  match d.json? depth with
  | some j => (Ty.ofDescriptor j).toOption
  | none   => none

/-- The definitions of a table in a document, each read by the given reader. -/
def readTable? (read : Document → Option α) (d : Document) : Option (List (String × α)) := do
  let ms ← d.members?
  let definitions ← ms.mapM fun (name, d) => (read d).map fun a => (name, a)
  pure (definitions.foldl (fun t e => Table.put e.1 e.2 t) [])

def Attribute.ofDocument? (d : Document) : Option Attribute := do
  match ← d.record? ["type", "mode", "sensitive", "deprecated", "description"] with
  | [some ty, mode, sensitive, deprecated, description] =>
    let choose d := (Document.choice? Document.isVoid d).bind AttributeMode.ofName?
    return ⟨← Ty.ofDocument? Json.depthLimit ty, ← Document.orElse .optional choose mode,
      ← Document.orElse false Document.bool? sensitive, ← Document.orElse false Document.bool? deprecated,
      ← Document.orElse none Document.optionalText? description⟩
  | _ => none

namespace Block

/-- A block from the members of its document; the fuel bounds the depth of nested blocks. -/
def ofMembers? : Nat → List (String × Document) → Option Block
  | 0, _         => none
  | fuel + 1, ms => do
    match ← Document.fields? ms ["attributes", "blocks", "description", "deprecated"] with
    | [attributes, blocks, description, deprecated] =>
      let nested (d : Document) : Option (Nesting × Block) := do
        let ms ← d.members?
        match ← Document.fields? ms ["nesting_mode", "min_items", "max_items"] with
        | [mode, low, high] =>
          let choose d := (Document.choice? Document.isVoid d).bind NestingMode.ofName?
          let nesting : Nesting := ⟨← Document.orElse .single choose mode,
            ← Document.orElse 0 Document.uint32? low, ← Document.orElse 0 Document.uint32? high⟩
          return (nesting, ← ofMembers? fuel ms)
        | _ => none
      return ⟨← Document.orElse [] (readTable? Attribute.ofDocument?) attributes,
        ← Document.orElse [] (readTable? nested) blocks,
        ← Document.orElse none Document.optionalText? description,
        ← Document.orElse false Document.bool? deprecated⟩
    | _ => none

end Block

namespace Schema

/-- A schema from its document, which must be readable throughout. -/
def ofDocument? (d : Document) : Option Schema := do
  let _ ← d.json? Json.depthLimit
  let ms ← d.members?
  let version ← Document.field? ms "version"
  return ⟨← Document.orElse 0 Document.int64? version, ← Block.ofMembers? Json.depthLimit ms⟩

def ofText? (s : String) : Option Schema := (Document.ofText? s).bind ofDocument?

end Schema

def IdentityAttribute.ofDocument? (d : Document) : Option IdentityAttribute := do
  match ← d.record? ["type", "import", "description"] with
  | [some ty, requirement, description] =>
    let choose d := (Document.choice? Document.isNull d).bind ImportRequirement.ofName?
    return ⟨← Ty.ofDocument? (Json.depthLimit - 3) ty, ← Document.orElse .requiredForImport choose requirement,
      ← Document.orElse none Document.optionalText? description⟩
  | _ => none

namespace IdentitySchema

/-- An identity schema from its document.  Members that are ignored need not be readable. -/
def ofDocument? (d : Document) : Option IdentitySchema := do
  match ← d.record? ["version", "attributes"] with
  | [version, attributes] =>
    return ⟨← Document.orElse 0 Document.int64? version,
      ← Document.orElse [] (readTable? IdentityAttribute.ofDocument?) attributes⟩
  | _ => none

def ofText? (s : String) : Option IdentitySchema := (Document.ofText? s).bind ofDocument?

end IdentitySchema

end ProviderProtocol
