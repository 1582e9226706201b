import ProviderProtocol.Ty.Descriptor
import ProviderProtocol.Value.Shape
import ProviderProtocol.Value.Walk
/-!
# Errors

An error is the kind of operation that failed and the cause.  Causes are data; their wording is in the `message`
functions alone.  Errors never cross the wire: whoever answers a request turns them into diagnostics, whose detail is
`ProviderError.text`.  Each kind has a cause `other` for errors that a provider's own code reports in its own words.
-/
namespace ProviderProtocol

/-! ## Decoding -/

/-- What was found where a value of some type was expected. -/
inductive Found
  | kind (name : String)
  | invalidText
  | outOfRange
  | nonFinite
  | nonNumeric
  | length (n : Nat)
  | invalidKey
  | keyKind (name : String)
  deriving DecidableEq

def Found.message : Found → String
  | .kind name    => name
  | .invalidText  => "invalid UTF-8 string"
  | .outOfRange   => "out of range integer"
  | .nonFinite    => "non-finite float"
  | .nonNumeric   => "non-numeric string"
  | .length n     => "array of " ++ toString n ++ " elements"
  | .invalidKey   => "invalid UTF-8 key"
  | .keyKind name => name ++ " map key"

inductive DecodeFault
  | noSchema
  | noIdentitySchema
  | emptyPayload
  | invalidJson
  | invalidMsgpack
  | trailing (count : Nat)
  | flatmap
  | expected (path : Path) (ty : Ty) (found : Found)
  | unsupported (path : Path) (name : String)
  | other (text : String)

def DecodeFault.message : DecodeFault → String
  | .noSchema           => "no schema to decode against"
  | .noIdentitySchema   => "resource type has no identity schema"
  | .emptyPayload       => "dynamic value carries neither msgpack nor JSON"
  | .invalidJson        => "invalid JSON: the text is not a JSON document"
  | .invalidMsgpack     => "invalid msgpack: the bytes hold no complete value"
  | .trailing n         => toString n ++ " trailing bytes after msgpack value"
  | .flatmap            => "flatmap state is not supported"
  | .expected p t found => "at " ++ p.place ++ ": expected " ++ t.text ++ ", got " ++ found.message
  | .unsupported p name => "at " ++ p.place ++ ": unsupported attribute " ++ Text.quote name
  | .other text         => text

/-! ## Encoding, types and JSON texts -/

inductive EncodeFault
  | noSchema
  | noIdentitySchema
  | type (got expected : Ty)
  | other (text : String)

def EncodeFault.message : EncodeFault → String
  | .noSchema          => "no schema to encode against"
  | .noIdentitySchema  => "resource type has no identity schema"
  | .type got expected => "value of type " ++ got.text ++ " does not conform to " ++ expected.text
  | .other text        => text

inductive TypeFault
  | descriptor (why : Ty.DescriptorFault)
  | attributeMode (name : String)
  | nestingMode (name : String) (number : Int)
  | itemCount (name : String) (count : Int)
  | other (text : String)

def TypeFault.message : TypeFault → String
  | .descriptor why     => why.message
  | .attributeMode name =>
    "attribute " ++ Text.quote name ++ " has an invalid combination of required/optional/computed"
  | .nestingMode name n => "nested block " ++ Text.quote name ++ " has invalid nesting mode " ++ toString n
  | .itemCount name n   => "nested block " ++ Text.quote name ++ " has invalid item count " ++ toString n
  | .other text         => text

/-- A text that is no JSON document, or one of a document that does not have the form asked for. -/
inductive JsonFault
  | malformed
  | form

def JsonFault.message : JsonFault → String
  | .malformed => "the text is not a JSON document"
  | .form      => "the document does not have the expected form"

/-! ## All errors -/

inductive ProviderError
  | typeMismatch (why : ShapeFault)
  | decode (why : DecodeFault)
  | encode (why : EncodeFault)
  | invalidPath (why : PathFault)
  | invalidType (why : TypeFault)
  | serialization (why : JsonFault)

namespace ProviderError

/-- The cause in words; that of a serialization error is not told. -/
def message : ProviderError → String
  | .typeMismatch why  => why.message
  | .decode why        => why.message
  | .encode why        => why.message
  | .invalidPath why   => why.message
  | .invalidType why   => why.message
  | .serialization _   => "serialization error (see Debug output)"

def text : ProviderError → String
  | .typeMismatch why  => "Type mismatch: " ++ why.message
  | .decode why        => "Decode error: " ++ why.message
  | .encode why        => "Encode error: " ++ why.message
  | .invalidPath why   => "Invalid attribute path: " ++ why.message
  | .invalidType why   => "Invalid type: " ++ why.message
  | .serialization why => "Serialization error: " ++ why.message

end ProviderError

/-- The type with this descriptor, from its text in UTF-8. -/
def Ty.ofDescriptorBytes (bytes : Bytes) : Except ProviderError Ty :=
  match Json.ofBytes? bytes with
  | none   => .error (.serialization .malformed)
  | some j => (ofDescriptor j).mapError fun why => .invalidType (.descriptor why)

end ProviderProtocol
