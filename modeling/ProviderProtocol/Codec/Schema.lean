import ProviderProtocol.Codec.Payload
import ProviderProtocol.Schema.Basic
/-!
# Payloads against schemas

The type that directs a payload is the value type of a schema.  Without a schema nothing can be read or written,
except an identity that is absent: it stays absent both ways.
-/
namespace ProviderProtocol

/-- The identity of a resource in transit; the identity may be there and its payload absent. -/
structure IdentityPayload where
  data : Option Payload
  deriving DecidableEq

namespace Payload

def decodeFor (schema : Option Schema) (p : Option Payload) : Except ProviderError Value :=
  match schema with
  | none   => .error (.decode .noSchema)
  | some s => decode s.valueType p

def encodeFor (schema : Option Schema) (v : Value) : Except ProviderError Payload :=
  match schema with
  | none   => .error (.encode .noSchema)
  | some s => encode s.valueType v

end Payload

namespace IdentityPayload

def decodeFor (schema : Option IdentitySchema) : Option IdentityPayload → Except ProviderError (Option Value)
  | none   => .ok none
  | some p =>
    match schema with
    | none   => .error (.decode .noIdentitySchema)
    | some s => (Payload.decode s.valueType p.data).map some

def encodeFor (schema : Option IdentitySchema) : Option Value → Except ProviderError (Option IdentityPayload)
  | none   => .ok none
  | some v =>
    match schema with
    | none   => .error (.encode .noIdentitySchema)
    | some s => (Payload.encode s.valueType v).map fun p => some ⟨some p⟩

end IdentityPayload

end ProviderProtocol
