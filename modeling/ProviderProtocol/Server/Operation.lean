import ProviderProtocol.Registry
import ProviderProtocol.Wire.Message
/-!
# Operations and how they end

An operation runs in the state of the provider and either reaches its response or is halted by diagnostics; then the
response carries these diagnostics and nothing else (`Operation.answer`).

The steps that operations are made of are here: finding an implementation, asking for a schema (any diagnostic halts,
a warning too), decoding and encoding payloads (a failure is one error that names what was decoded or encoded), and
checking what a handler reported (`check`: only an error halts).
-/
namespace ProviderProtocol

abbrev Operation (σ α : Type) := ExceptT (List Diagnostic) (StateM σ) α

namespace Operation

/-- The response of an operation, or the one made of the diagnostics that halted it. -/
def answer (halted : List WireDiagnostic → ρ) (op : Operation σ ρ) : StateM σ ρ := do
  match ← op.run with
  | .ok resp  => pure resp
  | .error ds => pure (halted (ds.map Diagnostic.toWire))

def halt (d : Diagnostic) : Operation σ α := throw [d]

def orHalt (summary : String) : Except ProviderError α → Operation σ α
  | .ok a    => pure a
  | .error e => halt (.ofError summary e)

def found : Except Diagnostic α → Operation σ α
  | .ok a    => pure a
  | .error d => halt d

/-- Halts if there is an error among the diagnostics of a handler. -/
def check (ds : List Diagnostic) : Operation σ Unit := if hasErrors ds then throw ds else pure ()

/-- Runs a handler. -/
def call (h : Handler σ Request Response) (req : Request) (resp : Response) : Operation σ Response :=
  ExceptT.lift (h req resp)

/-! ## Schemas -/

def schemaOf (h : Handler σ Unit SchemaResponse) : Operation σ (Option Schema) := do
  let resp ← call h () {}
  if resp.diagnostics.isEmpty then pure resp.schema else throw resp.diagnostics

def identitySchemaOf (h : Handler σ Unit IdentitySchemaResponse) : Operation σ (Option IdentitySchema) := do
  let resp ← call h () {}
  if resp.diagnostics.isEmpty then pure resp.schema else throw resp.diagnostics

/-! ## Payloads -/

def decode (schema : Option Schema) (p : Option Payload) (what : String) : Operation σ Value :=
  orHalt ("Error Decoding " ++ what) (Payload.decodeFor schema p)

def encode (schema : Option Schema) (v : Value) (what : String) : Operation σ Payload :=
  orHalt ("Error Encoding " ++ what) (Payload.encodeFor schema v)

def decodeIdentity (schema : Option IdentitySchema) (p : Option IdentityPayload) (what : String) :
    Operation σ (Option Value) :=
  orHalt ("Error Decoding " ++ what) (IdentityPayload.decodeFor schema p)

def encodeIdentity (schema : Option IdentitySchema) (v : Option Value) (what : String) :
    Operation σ (Option IdentityPayload) :=
  orHalt ("Error Encoding " ++ what) (IdentityPayload.encodeFor schema v)

end Operation

end ProviderProtocol
