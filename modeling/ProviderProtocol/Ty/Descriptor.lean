import ProviderProtocol.Json.Printer
import ProviderProtocol.Json.Reader
import ProviderProtocol.Text.Quoted
import ProviderProtocol.Ty.Basic
/-!
# Type descriptors

A type is written as JSON: a primitive by its name, any other as an array of its kind and its argument, as in
`["list","string"]` or `["object",{"a":"number"}]`.  `descriptor` writes it and `ofDescriptor` reads it; the reader
accepts nothing else and names the first fault, attributes of an object in ascending order of their names.
-/
namespace ProviderProtocol

namespace Ty

inductive DescriptorFault
  | unknownPrimitive (name : String)
  | unknownKind (name : String)
  | kindNotString
  | attributesNotObject
  | elementsNotArray
  | malformed (descriptor : Json)

def DescriptorFault.message : DescriptorFault → String
  | .unknownPrimitive name => "unknown primitive type " ++ Text.quote name
  | .unknownKind name      => "unknown type kind " ++ Text.quote name
  | .kindNotString         => "type kind must be a string"
  | .attributesNotObject   => "object attribute types must be a JSON object"
  | .elementsNotArray      => "tuple element types must be a JSON array"
  | .malformed descriptor  => "malformed type descriptor " ++ descriptor.text

/-! ## Writing -/

mutual

def descriptor : Ty → Json
  | .string       => .string "string"
  | .number       => .string "number"
  | .bool         => .string "bool"
  | .list t       => .array [.string "list", t.descriptor]
  | .set t        => .array [.string "set", t.descriptor]
  | .map t        => .array [.string "map", t.descriptor]
  | .object attrs => .array [.string "object", .object (descriptorAttrs attrs)]
  | .tuple elems  => .array [.string "tuple", .array (descriptorElems elems)]

def descriptorAttrs : List (String × Ty) → List (String × Json)
  | []                => []
  | (name, t) :: rest => (name, t.descriptor) :: descriptorAttrs rest

def descriptorElems : List Ty → List Json
  | []        => []
  | t :: rest => t.descriptor :: descriptorElems rest

end

def descriptorText (t : Ty) : String := t.descriptor.text

def descriptorBytes (t : Ty) : Bytes := Text.Utf8.encode t.descriptorText

/-! ## Reading -/

mutual

def ofDescriptor : Json → Except DescriptorFault Ty
  | .string name =>
    match name with
    | "string" => .ok .string
    | "number" => .ok .number
    | "bool"   => .ok .bool
    | _        => .error (.unknownPrimitive name)
  | .array [.string "list", arg]   => (ofDescriptor arg).map .list
  | .array [.string "set", arg]    => (ofDescriptor arg).map .set
  | .array [.string "map", arg]    => (ofDescriptor arg).map .map
  | .array [.string "object", arg] =>
    match arg with
    | .object members => (ofDescriptorMembers members).map .object
    | _               => .error .attributesNotObject
  | .array [.string "tuple", arg]  =>
    match arg with
    | .array items => (ofDescriptorItems items).map .tuple
    | _            => .error .elementsNotArray
  | .array [.string kind, _] => .error (.unknownKind kind)
  | .array [_, _]            => .error .kindNotString
  | other                    => .error (.malformed other)

def ofDescriptorMembers : List (String × Json) → Except DescriptorFault (List (String × Ty))
  | []                => .ok []
  | (name, j) :: rest => do
    let t ← ofDescriptor j
    let ts ← ofDescriptorMembers rest
    pure ((name, t) :: ts)

def ofDescriptorItems : List Json → Except DescriptorFault (List Ty)
  | []        => .ok []
  | j :: rest => do
    let t ← ofDescriptor j
    let ts ← ofDescriptorItems rest
    pure (t :: ts)

end

end Ty

end ProviderProtocol
