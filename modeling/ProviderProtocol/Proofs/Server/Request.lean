import ProviderProtocol.Proofs.Server.Apply
import ProviderProtocol.Server.DataSource
import ProviderProtocol.Server.ListResource
import ProviderProtocol.Server.StateStore
/-!
# Requests that name a type

All operations but those on the provider itself name the type that they are about.  `TypedRequest` collects them and
`Server.serve` answers them.  What there is to know about an operation before it runs is its `Outline`: the schemas it
asks for (`Ask`), each with the payloads of the request that are read against it, and the calls that are its handler's.
-/
namespace ProviderProtocol

/-! ## Asking for schemas -/

/-- A schema to ask for, and the payloads to read against it; an absent payload is read as null. -/
inductive Ask (σ : Type)
  | schema (handler : Handler σ Unit SchemaResponse) (payloads : List (Option Payload))
  | identity (handler : Handler σ Unit IdentitySchemaResponse) (payloads : List (Option IdentityPayload))

namespace Ask

/-- The diagnostics that come with the schema, and the state that asking leaves. -/
def report : Ask σ → σ → List Diagnostic × σ
  | .schema h _, s   => ((h () {} s).1.diagnostics, (h () {} s).2)
  | .identity h _, s => ((h () {} s).1.diagnostics, (h () {} s).2)

/-- What the first schema that comes with diagnostics comes with; nothing if all come without. -/
def raised : List (Ask σ) → σ → List Diagnostic
  | [], _        => []
  | a :: asks, s => if (a.report s).1 = [] then raised asks (a.report s).2 else (a.report s).1

/-- Every schema comes without a diagnostic, and every payload decodes against its schema. -/
def Readable : List (Ask σ) → σ → Prop
  | [], _                             => True
  | .schema h payloads :: asks, s   => ∃ schema s', h () {} s = (⟨schema, []⟩, s') ∧
    (∀ p ∈ payloads, ∃ v, Payload.decodeFor schema p = .ok v) ∧ Readable asks s'
  | .identity h payloads :: asks, s => ∃ schema s', h () {} s = (⟨schema, []⟩, s') ∧
    (∀ p ∈ payloads, ∃ v, IdentityPayload.decodeFor schema p = .ok v) ∧ Readable asks s'

end Ask

/-! ## Requests -/

/-- A request that names a type.  A listing comes with the sink for its events and the state of the sink. -/
inductive TypedRequest (τ : Type)
  | validateResourceConfig (req : Wire.ConfigRequest)
  | upgradeResourceState (req : Wire.UpgradeRequest)
  | readResource (req : Wire.ReadRequest)
  | planResourceChange (req : Wire.PlanRequest)
  | applyResourceChange (req : Wire.ApplyRequest)
  | importResourceState (req : Wire.ImportRequest)
  | validateDataConfig (req : Wire.ConfigRequest)
  | readDataSource (req : Wire.ConfigRequest)
  | validateListConfig (req : Wire.ListRequest)
  | listResource (emit : Server.Sink τ) (sink : τ) (req : Wire.ListRequest)
  | validateStoreConfig (req : Wire.ConfigRequest)
  | configureStateStore (req : Wire.ConfigureStoreRequest)
  | getStates (typeName : String)
  | deleteState (req : Wire.StateRequest)
  | lockState (req : Wire.LockRequest)
  | unlockState (req : Wire.UnlockRequest)
  | readStateBytes (req : Wire.StateRequest)
  | writeStateBytes (chunks : List Wire.UploadChunk)

namespace TypedRequest

/-- The answer; that of a listing is what has become of the sink. -/
def Response : TypedRequest τ → Type
  | .upgradeResourceState _                        => Wire.UpgradeResponse
  | .readResource _ | .applyResourceChange _       => Wire.StateResponse
  | .planResourceChange _                          => Wire.PlanResponse
  | .importResourceState _                         => Wire.ImportResponse
  | .readDataSource _                              => Wire.DataResponse
  | .listResource _ _ _                            => τ
  | .configureStateStore _                         => Wire.ConfigureStoreResponse
  | .getStates _                                   => Wire.StatesResponse
  | .lockState _                                   => Wire.LockResponse
  | .readStateBytes _                              => List Wire.DownloadChunk
  | .validateResourceConfig _ | .validateDataConfig _ | .validateListConfig _ | .validateStoreConfig _
  | .deleteState _ | .unlockState _ | .writeStateBytes _ => Wire.Report

end TypedRequest

def Server.serve (server : Server σ) : (req : TypedRequest τ) → StateM σ req.Response
  | .validateResourceConfig req   => server.validateResourceConfig req
  | .upgradeResourceState req     => server.upgradeResourceState req
  | .readResource req             => server.readResource req
  | .planResourceChange req       => server.planResourceChange req
  | .applyResourceChange req      => server.applyResourceChange req
  | .importResourceState req      => server.importResourceState req
  | .validateDataConfig req       => server.validateDataConfig req
  | .readDataSource req           => server.readDataSource req
  | .validateListConfig req       => server.validateListConfig req
  | .listResource emit sink req => fun s =>
    let (s, sink) := server.listResource emit req s sink
    (sink, s)
  | .validateStoreConfig req      => server.validateStoreConfig req
  | .configureStateStore req      => server.configureStateStore req
  | .getStates typeName           => server.getStates typeName
  | .deleteState req              => server.deleteState req
  | .lockState req                => server.lockState req
  | .unlockState req              => server.unlockState req
  | .readStateBytes req           => server.readStateBytes req
  | .writeStateBytes chunks       => server.writeStateBytes chunks

/-! ## Outlines -/

structure Outline (σ ρ : Type) where
  /-- The type that is named, if one is. -/
  typeName : Option String
  /-- What it is looked for as; if it is not found, this is what is missing. -/
  kind : String
  /-- The answer that is made of diagnostics alone. -/
  halted : List WireDiagnostic → ρ
  /-- The schemas to ask for once the type is found, or why it is not. -/
  asks : Except Diagnostic (List (Ask σ))
  /-- Is this a call of the operation's handler? -/
  handler : Call → Prop

namespace TypedRequest

/-- The target of an upload is named by its first chunk. -/
def uploadTarget : List Wire.UploadChunk → Except Server.UploadFault Wire.StateRequest
  | []         => .error .noChunk
  | first :: _ =>
    match first.target with
    | none        => .error .noTarget
    | some target => .ok target

/-- A listing looks for a list resource and then for a resource of the same name. -/
def listingKind (registry : Registry σ) (name : String) : String :=
  match registry.listResource name with
  | .error _ => "ListResource"
  | .ok _    => "Resource"

/-- The outline of a request to a server with this registry. -/
def outline (registry : Registry σ) : (req : TypedRequest τ) → Outline σ req.Response
  | .validateResourceConfig req => ⟨req.typeName, "Resource", Wire.Report.mk,
      (registry.resource req.typeName).map fun r => [.schema r.schema [req.config]],
      fun c => ∃ config, c = .resource req.typeName (.validateConfig config)⟩
  | .upgradeResourceState req => ⟨req.typeName, "Resource", Wire.UpgradeResponse.mk none,
      (registry.resource req.typeName).map fun r => [.schema r.schema [none]],
      fun c => ∃ q resp, c = .resource req.typeName (.upgradeState q resp)⟩
  | .readResource req => ⟨req.typeName, "Resource", Wire.StateResponse.mk none none [],
      (registry.resource req.typeName).map fun r =>
        [.schema r.schema [req.currentState], .identity r.identitySchema [req.currentIdentity]],
      fun c => ∃ q resp, c = .resource req.typeName (.read q resp)⟩
  | .planResourceChange req => ⟨req.typeName, "Resource", Wire.PlanResponse.mk none [] [] none,
      (registry.resource req.typeName).map fun r =>
        [.schema r.schema [req.priorState, req.proposedState, req.config],
          .identity r.identitySchema [req.priorIdentity]],
      fun c => ∃ q resp, c = .resource req.typeName (.planChange q resp)⟩
  | .applyResourceChange req => ⟨req.typeName, "Resource", Wire.StateResponse.mk none none [],
      (registry.resource req.typeName).map fun r =>
        [.schema r.schema [req.priorState, req.plannedState, req.config],
          .identity r.identitySchema [req.plannedIdentity]],
      fun c => ∃ call, c = .resource req.typeName call ∧ c.isLifecycle = true⟩
  | .importResourceState req => ⟨req.typeName, "Resource", Wire.ImportResponse.mk [],
      (registry.resource req.typeName).map fun r =>
        [.schema r.schema [none], .identity r.identitySchema [req.identity]],
      fun c => ∃ q resp, c = .resource req.typeName (.importState q resp)⟩
  | .validateDataConfig req => ⟨req.typeName, "DataSource", Wire.Report.mk,
      (registry.dataSource req.typeName).map fun d => [.schema d.schema [req.config]],
      fun c => ∃ config, c = .dataSource req.typeName (.validateConfig config)⟩
  | .readDataSource req => ⟨req.typeName, "DataSource", Wire.DataResponse.mk none,
      (registry.dataSource req.typeName).map fun d => [.schema d.schema [req.config]],
      fun c => ∃ config resp, c = .dataSource req.typeName (.read config resp)⟩
  | .validateListConfig req => ⟨req.typeName, "ListResource", Wire.Report.mk,
      (registry.listResource req.typeName).map fun l => [.schema l.schema [req.config]],
      fun c => ∃ q, c = .listResource req.typeName (.validateConfig q)⟩
  | .listResource emit sink req => ⟨req.typeName, listingKind registry req.typeName,
      fun ds => ((emit { diagnostics := ds }).run sink).2,
      (registry.listResource req.typeName).bind fun l => (registry.resource req.typeName).map fun r =>
        [.schema l.schema [req.config], .schema r.schema [], .identity r.identitySchema []],
      fun c => ∃ q, c = .listResource req.typeName (.list q)⟩
  | .validateStoreConfig req => ⟨req.typeName, "StateStore", Wire.Report.mk,
      (registry.stateStore req.typeName).map fun t => [.schema t.schema [req.config]],
      fun c => ∃ config, c = .stateStore req.typeName (.validateConfig config)⟩
  | .configureStateStore req => ⟨req.typeName, "StateStore", Wire.ConfigureStoreResponse.mk none,
      (registry.stateStore req.typeName).map fun t => [.schema t.schema [req.config]],
      fun c => ∃ q resp, c = .stateStore req.typeName (.configure q resp)⟩
  | .getStates typeName => ⟨typeName, "StateStore", Wire.StatesResponse.mk [],
      (registry.stateStore typeName).map fun _ => [],
      fun c => c = .stateStore typeName .states⟩
  | .deleteState req => ⟨req.typeName, "StateStore", Wire.Report.mk,
      (registry.stateStore req.typeName).map fun _ => [],
      fun c => c = .stateStore req.typeName (.delete req.id)⟩
  | .lockState req => ⟨req.typeName, "StateStore", Wire.LockResponse.mk "",
      (registry.stateStore req.typeName).map fun _ => [],
      fun c => c = .stateStore req.typeName (.lock ⟨req.id, req.operation⟩)⟩
  | .unlockState req => ⟨req.typeName, "StateStore", Wire.Report.mk,
      (registry.stateStore req.typeName).map fun _ => [],
      fun c => c = .stateStore req.typeName (.unlock ⟨req.id, req.lockId⟩)⟩
  | .readStateBytes req => ⟨req.typeName, "StateStore", fun ds => [{ diagnostics := ds }],
      (registry.stateStore req.typeName).map fun _ => [],
      fun c => ∃ resp, c = .stateStore req.typeName (.readBytes req.id resp)⟩
  | .writeStateBytes chunks => ⟨(uploadTarget chunks).toOption.map Wire.StateRequest.typeName, "StateStore",
      Wire.Report.mk,
      ((uploadTarget chunks).mapError Server.UploadFault.diagnostic).bind fun target =>
        (registry.stateStore target.typeName).map fun _ => [],
      fun c => ∃ target bytes, uploadTarget chunks = .ok target ∧
        c = .stateStore target.typeName (.writeBytes ⟨target.id, bytes⟩)⟩

end TypedRequest

end ProviderProtocol
