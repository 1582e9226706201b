import ProviderProtocol.Plan
import ProviderProtocol.Server.Provider
/-!
# Operations on managed resources

Every operation finds the resource type, asks for its schema and, where identities occur, for that of its identity,
decodes all payloads of the request, calls at most one handler and encodes what the handler left in its response.  The
response a handler gets is filled with what doing nothing amounts to: a read keeps the current state, a plan is the
proposal with the unknown marks of `Schema.markComputedUnknown`, an apply takes what was planned.

`applyResourceChange` is told by the states what to do: no prior state is a create, no planned state a delete and
anything else an update.
-/
namespace ProviderProtocol.Server

open Operation (answer call check decode decodeIdentity encode encodeIdentity found halt identitySchemaOf orHalt
  schemaOf)

def wire (ds : List Diagnostic) : List WireDiagnostic := ds.map Diagnostic.toWire

/-- A configuration decoded for an implementation with this schema handler. -/
def configFor (schema : Handler σ Unit SchemaResponse) (config : Option Payload) : Operation σ Value := do
  decode (← schemaOf schema) config "Config"

def validateResourceConfig (server : Server σ) (req : Wire.ConfigRequest) : StateM σ Wire.Report :=
  answer Wire.Report.mk do
    let resource ← found (server.registry.resource req.typeName)
    let config ← configFor resource.schema req.config
    return ⟨wire (← call resource.validateConfig config [])⟩

/-! ## Upgrade and read -/

/-- State saved under the current version is only read; the handler upgrades all other. -/
def upgradeResourceState (server : Server σ) (req : Wire.UpgradeRequest) : StateM σ Wire.UpgradeResponse :=
  answer (Wire.UpgradeResponse.mk none) do
    let resource ← found (server.registry.resource req.typeName)
    let schema ← schemaOf resource.schema
    let rawState := req.rawState.getD ⟨[], []⟩
    let nullState ← decode schema none "Upgraded State"
    if req.version = (schema.map Schema.version).getD 0 then
      let state ← orHalt "Unable to Read Previously Saved State" (rawState.unmarshal nullState.ty)
      return ⟨some (← encode schema state "Upgraded State"), []⟩
    else
      let resp ← call resource.upgradeState ⟨req.version, rawState⟩ ⟨nullState, []⟩
      check resp.diagnostics
      return ⟨some (← encode schema resp.state "Upgraded State"), wire resp.diagnostics⟩

/-- What a handler left in its response, encoded; the state goes first. -/
def encodeState (schema : Option Schema) (identitySchema : Option IdentitySchema) (resp : StateResponse) :
    Operation σ Wire.StateResponse := do
  check resp.diagnostics
  let newState ← encode schema resp.newState "New State"
  let newIdentity ← encodeIdentity identitySchema resp.newIdentity "New Identity"
  return ⟨some newState, newIdentity, resp.privateBytes, wire resp.diagnostics⟩

def readResource (server : Server σ) (req : Wire.ReadRequest) : StateM σ Wire.StateResponse :=
  answer (Wire.StateResponse.mk none none []) do
    let resource ← found (server.registry.resource req.typeName)
    let schema ← schemaOf resource.schema
    let identitySchema ← identitySchemaOf resource.identitySchema
    let currentState ← decode schema req.currentState "Current State"
    let currentIdentity ← decodeIdentity identitySchema req.currentIdentity "Current Identity"
    let resp ← call resource.read ⟨currentState, req.privateBytes, currentIdentity⟩
      ⟨currentState, currentIdentity, req.privateBytes, []⟩
    encodeState schema identitySchema resp

/-! ## Plan -/

/-- The plan before the provider has its say.  A proposal that is null or equals the prior state stands as it is. -/
def seedPlan (schema : Option Schema) (config prior proposed : Value) : Operation σ Value :=
  match schema with
  | some s =>
    if !proposed.isNull && !proposed.equal prior then
      orHalt "Error Modifying Proposed New State" (s.markComputedUnknown config proposed)
    else pure proposed
  | none => pure proposed

def planResourceChange (server : Server σ) (req : Wire.PlanRequest) : StateM σ Wire.PlanResponse :=
  answer (Wire.PlanResponse.mk none [] [] none) do
    let resource ← found (server.registry.resource req.typeName)
    let schema ← schemaOf resource.schema
    let identitySchema ← identitySchemaOf resource.identitySchema
    let prior ← decode schema req.priorState "Prior State"
    let proposed ← decode schema req.proposedState "Proposed New State"
    let config ← decode schema req.config "Config"
    let priorIdentity ← decodeIdentity identitySchema req.priorIdentity "Prior Identity"
    let seed ← seedPlan schema config prior proposed
    let resp ← call resource.planChange ⟨config, prior, proposed, req.priorPrivate, priorIdentity⟩
      ⟨seed, [], req.priorPrivate, priorIdentity, []⟩
    check resp.diagnostics
    let plannedState ← encode schema resp.plannedState "Planned State"
    let plannedIdentity ← encodeIdentity identitySchema resp.plannedIdentity "Planned Identity"
    return ⟨some plannedState, resp.requiresReplace.map Path.toWire, resp.plannedPrivate, plannedIdentity,
      wire resp.diagnostics⟩

/-! ## Apply -/

/-- After a delete the planned state, which is null, is the new one, as it was sent. -/
def applyResourceChange (server : Server σ) (req : Wire.ApplyRequest) : StateM σ Wire.StateResponse :=
  answer (Wire.StateResponse.mk none none []) do
    let resource ← found (server.registry.resource req.typeName)
    let schema ← schemaOf resource.schema
    let identitySchema ← identitySchemaOf resource.identitySchema
    let prior ← decode schema req.priorState "Prior State"
    let planned ← decode schema req.plannedState "Planned State"
    let config ← decode schema req.config "Config"
    let plannedIdentity ← decodeIdentity identitySchema req.plannedIdentity "Planned Identity"
    if prior.isNull then
      let resp ← call resource.create ⟨config, planned, req.plannedPrivate, plannedIdentity⟩
        ⟨config, plannedIdentity, req.plannedPrivate, []⟩
      encodeState schema identitySchema resp
    else if planned.isNull then
      let ds ← call resource.delete ⟨prior, plannedIdentity⟩ []
      check ds
      return ⟨req.plannedState, none, req.plannedPrivate, wire ds⟩
    else
      let resp ← call resource.update ⟨config, planned, prior, req.plannedPrivate, plannedIdentity⟩
        ⟨planned, plannedIdentity, req.plannedPrivate, []⟩
      encodeState schema identitySchema resp

/-! ## Import -/

/-- A handler that leaves the state null has imported nothing. -/
def importResourceState (server : Server σ) (req : Wire.ImportRequest) : StateM σ Wire.ImportResponse :=
  answer (Wire.ImportResponse.mk []) do
    let resource ← found (server.registry.resource req.typeName)
    let schema ← schemaOf resource.schema
    let identitySchema ← identitySchemaOf resource.identitySchema
    let identity ← decodeIdentity identitySchema req.identity "Identity"
    let state ← decode schema none "Imported State"
    let resp ← call resource.importState ⟨req.id, identity⟩ ⟨state, identity, [], []⟩
    check resp.diagnostics
    if resp.state.isNull then return ⟨[], wire resp.diagnostics⟩
    else
      let state ← encode schema resp.state "Imported State"
      let identity ← encodeIdentity identitySchema resp.identity "Imported Identity"
      return ⟨[⟨req.typeName, some state, resp.privateBytes, identity⟩], wire resp.diagnostics⟩

end ProviderProtocol.Server
