import ProviderProtocol.Server.Basic
/-!
# Operations on the provider

What is registered, the schemas of everything registered, and the configuration of the provider itself.  Collecting the
schemas asks every implementation once, in the order of the names; types that report none are left out and the
diagnostics of all are put together.
-/
namespace ProviderProtocol.Server

open Operation (call answer check decode schemaOf)

def getMetadata (server : Server σ) : StateM σ Wire.Metadata :=
  pure {
    capabilities := some server.capabilities
    resources := Table.names server.registry.resources
    dataSources := Table.names server.registry.dataSources
    listResources := Table.names server.registry.listResources
    stateStores := Table.names server.registry.stateStores }

/-! ## Schemas -/

/-- What handlers report by name, each asked once with the empty answer: the schemas that there are, on the wire, and
all diagnostics. -/
def collect (empty : ρ) (report : ρ → Option ω × List Diagnostic) :
    List (String × Handler σ Unit ρ) → StateM σ (List (String × ω) × List Diagnostic)
  | []                => pure ([], [])
  | (name, h) :: rest => do
    let (schema, own) := report (← h () empty)
    let (schemas, ds) ← collect empty report rest
    pure ((match schema with | some w => (name, w) :: schemas | none => schemas), own ++ ds)

def collectSchemas : List (String × Handler σ Unit SchemaResponse) →
    StateM σ (List (String × WireSchema) × List Diagnostic) :=
  collect {} fun resp => (resp.schema.map Schema.toWire, resp.diagnostics)

def collectIdentitySchemas : List (String × Handler σ Unit IdentitySchemaResponse) →
    StateM σ (List (String × WireIdentitySchema) × List Diagnostic) :=
  collect {} fun resp => (resp.schema.map IdentitySchema.toWire, resp.diagnostics)

/-- A provider that reports no schema has an empty one. -/
def getProviderSchema (server : Server σ) : StateM σ Wire.ProviderSchema := do
  let own ← server.registry.provider.schema () {}
  let (resources, ds₁) ← collectSchemas (server.registry.resources.map fun (name, r) => (name, r.schema))
  let (dataSources, ds₂) ← collectSchemas (server.registry.dataSources.map fun (name, d) => (name, d.schema))
  let (listResources, ds₃) ← collectSchemas (server.registry.listResources.map fun (name, l) => (name, l.schema))
  let (stateStores, ds₄) ← collectSchemas (server.registry.stateStores.map fun (name, s) => (name, s.schema))
  pure {
    capabilities := some server.capabilities
    provider := some (own.schema.getD (.new 0)).toWire
    resources, dataSources, listResources, stateStores
    diagnostics := (own.diagnostics ++ ds₁ ++ ds₂ ++ ds₃ ++ ds₄).map Diagnostic.toWire }

def getIdentitySchemas (server : Server σ) : StateM σ Wire.IdentitySchemas := do
  let (schemas, ds) ←
    collectIdentitySchemas (server.registry.resources.map fun (name, r) => (name, r.identitySchema))
  pure { schemas, diagnostics := ds.map Diagnostic.toWire }

/-! ## Configuration -/

/-- The configuration of the provider, read against its schema. -/
def providerConfig (server : Server σ) (config : Option Payload) : Operation σ Value := do
  let schema ← schemaOf server.registry.provider.schema
  decode (some (schema.getD (.new 0))) config "Provider Config"

def report (ds : List Diagnostic) : Wire.Report := ⟨ds.map Diagnostic.toWire⟩

def validateProviderConfig (server : Server σ) (config : Option Payload) : StateM σ Wire.Report :=
  answer Wire.Report.mk do
    let config ← server.providerConfig config
    return report (← call server.registry.provider.validateConfig config [])

def configureProvider (server : Server σ) (req : Wire.ConfigureRequest) : StateM σ Wire.Report :=
  answer Wire.Report.mk do
    let config ← server.providerConfig req.config
    return report (← call server.registry.provider.configure ⟨req.clientVersion, config⟩ [])

/-- The message of a failed stop; empty if there is nothing to tell. -/
def stopProvider (server : Server σ) : StateM σ String := do
  return (← server.registry.provider.stop () none).getD ""

end ProviderProtocol.Server
