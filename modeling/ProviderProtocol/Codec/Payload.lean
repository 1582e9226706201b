import ProviderProtocol.Codec.Decode
import ProviderProtocol.Msgpack.Reader
import ProviderProtocol.Msgpack.Writer
/-!
# Payloads

A value crosses the wire as bytes that mean something only beside a type.  It is always written as msgpack; a payload
without msgpack is read as JSON, an absent payload as null.  Bytes after the msgpack value are refused.

Saved state comes as JSON text, or, in a form that is not read any more, as a flat map of strings.
-/
namespace ProviderProtocol

structure Payload where
  msgpack : Bytes
  json : Bytes
  deriving DecidableEq

/-! ## Writing -/

def Number.toMsgpack : Number → Msgpack
  | .int n _ => .int n
  | .float x => .float (some x)

mutual

def Value.toMsgpack : Value → Msgpack
  | .null _    => .nil
  | .unknown _ => .extension Value.unknownExtension [0]
  | .known _ c => c.toMsgpack

def Content.toMsgpack : Content → Msgpack
  | .string s => .ofText s
  | .number n => n.toMsgpack
  | .bool b   => .bool b
  | .list xs  => .array (Content.itemsToMsgpack xs)
  | .map es   => .map (Content.entriesToMsgpack es)

def Content.itemsToMsgpack : List Value → List Msgpack
  | []      => []
  | v :: vs => v.toMsgpack :: Content.itemsToMsgpack vs

def Content.entriesToMsgpack : List (String × Value) → List (Msgpack × Msgpack)
  | []           => []
  | (k, v) :: es => (.ofText k, v.toMsgpack) :: Content.entriesToMsgpack es

end

namespace Payload

/-- The payload of a value, which must have the type. -/
def encode (ty : Ty) (v : Value) : Except ProviderError Payload :=
  if v.ty = ty then .ok ⟨v.toMsgpack.write, []⟩ else .error (.encode (.type v.ty ty))

/-! ## Reading -/

def ofMsgpackBytes (ty : Ty) (bytes : Bytes) : Except ProviderError Value :=
  match Msgpack.read? Msgpack.depthBudget bytes with
  | none           => .error (.decode .invalidMsgpack)
  | some (m, rest) =>
    if rest.isEmpty then Value.ofMsgpack [] ty m else .error (.decode (.trailing rest.length))

def decode (ty : Ty) : Option Payload → Except ProviderError Value
  | none   => .ok (.null ty)
  | some p =>
    if !p.msgpack.isEmpty then ofMsgpackBytes ty p.msgpack
    else if !p.json.isEmpty then
      match Json.ofBytes? p.json with
      | none   => .error (.decode .invalidJson)
      | some j => Value.ofJson ty j
    else .error (.decode .emptyPayload)

end Payload

/-! ## Saved state -/

structure RawState where
  json : Bytes
  flatmap : List (String × String)
  deriving DecidableEq

namespace RawState

def unmarshal (raw : RawState) (ty : Ty) : Except ProviderError Value :=
  if raw.json.isEmpty then
    if raw.flatmap.isEmpty then .ok (.null ty) else .error (.decode .flatmap)
  else match Json.ofBytes? raw.json with
    | none   => .error (.serialization .malformed)
    | some j => Value.ofJson ty j

end RawState

end ProviderProtocol
