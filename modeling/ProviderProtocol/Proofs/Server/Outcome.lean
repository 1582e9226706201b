import ProviderProtocol.Proofs.Codec.RoundTrip
import ProviderProtocol.Proofs.Server.Apply
import ProviderProtocol.Proofs.Server.Errors
/-!
# What handlers leave, and what becomes of it

An operation that answers with a state has two halves.  The first one asks for the schemas, decodes the request and
calls the handler; its result is the `Outcome`, what the handler has left together with the schemas in force
(`Server.consultRead` and its like).  The second half, `respond`, checks the diagnostics and encodes the state and then
the identity.  `Server.readResource_eq` and its like say that an operation is its two halves.

Delivering ends in one of three ways (`Operation.delivered_respond`): the handler reported an error, everything is
encoded, or something does not conform to its schema.  All that is said of the six operations rests on this.
-/
namespace ProviderProtocol

structure Outcome where
  schema : Option Schema
  /-- Also absent where identities do not occur. -/
  identitySchema : Option IdentitySchema := none
  state : Value
  identity : Option Value := none
  privateBytes : Bytes := []
  /-- Only plans have such. -/
  requiresReplace : List Path := []
  diagnostics : List Diagnostic

namespace Outcome

def ofResponse (schema : Option Schema) (identitySchema : Option IdentitySchema) (resp : StateResponse) : Outcome where
  schema := schema
  identitySchema := identitySchema
  state := resp.newState
  identity := resp.newIdentity
  privateBytes := resp.privateBytes
  diagnostics := resp.diagnostics

/-- State and identity are of the types of their schemas.  An identity that is absent needs no schema. -/
def Conforms (o : Outcome) : Prop :=
  (∃ s, o.schema = some s ∧ o.state.ty = s.valueType) ∧
    ∀ v, o.identity = some v → ∃ s, o.identitySchema = some s ∧ v.ty = s.valueType

end Outcome

theorem Payload.encodeFor_ok_iff {schema : Option Schema} {v : Value} :
    (∃ p, encodeFor schema v = .ok p) ↔ ∃ s, schema = some s ∧ v.ty = s.valueType := by
  cases schema with
  | none => simp [encodeFor]
  | some s =>
    by_cases ht : v.ty = s.valueType
    · simp [encodeFor, encode, ht]
    · simp [encodeFor, encode, ht]

theorem IdentityPayload.encodeFor_ok_iff {schema : Option IdentitySchema} {v : Option Value} :
    (∃ p, encodeFor schema v = .ok p) ↔ ∀ x, v = some x → ∃ s, schema = some s ∧ x.ty = s.valueType := by
  cases v with
  | none => simp [encodeFor]
  | some x =>
    cases schema with
    | none => simp [encodeFor]
    | some s =>
      by_cases ht : x.ty = s.valueType
      · simp [encodeFor, Payload.encode, ht, Except.map]
      · simp [encodeFor, Payload.encode, ht, Except.map]

theorem Outcome.conforms_of_encoded {o : Outcome} {p : Payload} {i : Option IdentityPayload}
    (hp : Payload.encodeFor o.schema o.state = .ok p)
    (hi : IdentityPayload.encodeFor o.identitySchema o.identity = .ok i) : o.Conforms :=
  ⟨Payload.encodeFor_ok_iff.1 ⟨p, hp⟩, IdentityPayload.encodeFor_ok_iff.1 ⟨i, hi⟩⟩

/-! ## Delivering -/

/-- What an operation answers when it delivers an outcome; `make` puts a full response together, `halted` one of
diagnostics alone. -/
inductive Delivered (o : Outcome) (make : Payload → Option IdentityPayload → ρ) (halted : List WireDiagnostic → ρ) :
    ρ → Prop
  | refused : hasErrors o.diagnostics = true → Delivered o make halted (halted (o.diagnostics.map Diagnostic.toWire))
  | full {p : Payload} {i : Option IdentityPayload} : hasErrors o.diagnostics = false →
    Payload.encodeFor o.schema o.state = .ok p → IdentityPayload.encodeFor o.identitySchema o.identity = .ok i →
    Delivered o make halted (make p i)
  | unfit {d : Diagnostic} : hasErrors o.diagnostics = false → ¬ o.Conforms → d.isError = true →
    Delivered o make halted (halted [d.toWire])

theorem Delivered.full_of_conforms {o : Outcome} {make : Payload → Option IdentityPayload → ρ}
    {halted : List WireDiagnostic → ρ} {resp : ρ} (h : Delivered o make halted resp)
    (hds : hasErrors o.diagnostics = false) (hfit : o.Conforms) :
    ∃ p i, resp = make p i ∧ Payload.encodeFor o.schema o.state = .ok p ∧
      IdentityPayload.encodeFor o.identitySchema o.identity = .ok i := by
  cases h with
  | refused herror =>
    rw [hds] at herror
    cases herror
  | full _ hp hi       => exact ⟨_, _, rfl, hp, hi⟩
  | unfit _ hunfit _ => exact absurd hfit hunfit

namespace Operation

/-- The second half of an operation; the names are those that a failure to encode is reported with. -/
def respond (stateName identityName : String) (make : Outcome → Payload → Option IdentityPayload → ρ) (o : Outcome) :
    Operation σ ρ := do
  check o.diagnostics
  let state ← encode o.schema o.state stateName
  let identity ← encodeIdentity o.identitySchema o.identity identityName
  return make o state identity

/-- The answer of an operation that ends so. -/
def answered (halted : List WireDiagnostic → ρ) : Except (List Diagnostic) ρ → ρ
  | .ok resp  => resp
  | .error ds => halted (ds.map Diagnostic.toWire)

theorem delivered_respond (stateName identityName : String) (make : Outcome → Payload → Option IdentityPayload → ρ)
    (halted : List WireDiagnostic → ρ) (o : Outcome) (s : σ) :
    Delivered o (make o) halted (answered halted (exec (respond stateName identityName make o) s).1) := by
  unfold respond encode encodeIdentity
  rw [exec_bind, exec_check]
  cases hds : hasErrors o.diagnostics with
  | true  => exact .refused hds
  | false =>
    show Delivered o (make o) halted (answered halted (exec (_ >>= _) s).1)
    rw [exec_bind, exec_orHalt]
    cases hp : Payload.encodeFor o.schema o.state with
    | error e =>
      have hunfit : ¬ o.Conforms := by
        intro hc
        obtain ⟨p, hok⟩ := Payload.encodeFor_ok_iff.2 hc.1
        rw [hp] at hok
        cases hok
      exact .unfit hds hunfit rfl
    | ok p =>
      show Delivered o (make o) halted (answered halted (exec (_ >>= _) s).1)
      rw [exec_bind, exec_orHalt]
      cases hi : IdentityPayload.encodeFor o.identitySchema o.identity with
      | error e =>
        have hunfit : ¬ o.Conforms := by
          intro hc
          obtain ⟨i, hok⟩ := IdentityPayload.encodeFor_ok_iff.2 hc.2
          rw [hi] at hok
          cases hok
        exact .unfit hds hunfit rfl
      | ok i => exact .full hds hp hi

/-- An answer in two halves, once the first one has a result. -/
theorem run_answer_of_exec {halted : List WireDiagnostic → ρ} {first : Operation σ α} {second : α → Operation σ ρ}
    {a : α} {s s' : σ} (h : exec first s = (.ok a, s')) :
    ((answer halted (first >>= second)).run s).1 = answered halted (exec (second a) s').1 := by
  rw [run_answer, exec_bind, h]
  rfl

theorem delivered_of_exec {halted : List WireDiagnostic → ρ} {first : Operation σ Outcome} {o : Outcome} {s s' : σ}
    (h : exec first s = (.ok o, s')) (stateName identityName : String)
    (make : Outcome → Payload → Option IdentityPayload → ρ) :
    Delivered o (make o) halted ((answer halted (first >>= respond stateName identityName make)).run s).1 := by
  rw [run_answer_of_exec h]
  exact delivered_respond stateName identityName make halted o s'

end Operation

/-! ## Consulting handlers -/

namespace Server

open Operation

variable (server : Server σ)

/-- The outcome of an upgrade, if the handler is asked for it: it is for all versions but the current one. -/
def consultUpgrade (req : Wire.UpgradeRequest) : Operation σ Outcome := do
  let resource ← found (server.registry.resource req.typeName)
  let schema ← schemaOf resource.schema
  let nullState ← decode schema none "Upgraded State"
  let resp ← call resource.upgradeState ⟨req.version, req.rawState.getD ⟨[], []⟩⟩ ⟨nullState, []⟩
  return { schema, state := resp.state, diagnostics := resp.diagnostics }

def consultRead (req : Wire.ReadRequest) : Operation σ Outcome := do
  let resource ← found (server.registry.resource req.typeName)
  let schema ← schemaOf resource.schema
  let identitySchema ← identitySchemaOf resource.identitySchema
  let currentState ← decode schema req.currentState "Current State"
  let currentIdentity ← decodeIdentity identitySchema req.currentIdentity "Current Identity"
  let resp ← call resource.read ⟨currentState, req.privateBytes, currentIdentity⟩
    ⟨currentState, currentIdentity, req.privateBytes, []⟩
  return .ofResponse schema identitySchema resp

def consultPlan (req : Wire.PlanRequest) : Operation σ Outcome := do
  let resource ← found (server.registry.resource req.typeName)
  let schema ← schemaOf resource.schema
  let identitySchema ← identitySchemaOf resource.identitySchema
  let prior ← decode schema req.priorState "Prior State"
  let proposed ← decode schema req.proposedState "Proposed New State"
  let config ← decode schema req.config "Config"
  let priorIdentity ← decodeIdentity identitySchema req.priorIdentity "Prior Identity"
  let seed ← seedPlan schema config prior proposed
  let resp ← call resource.planChange ⟨config, prior, proposed, req.priorPrivate, priorIdentity⟩
    ⟨seed, [], req.priorPrivate, priorIdentity, []⟩
  return ⟨schema, identitySchema, resp.plannedState, resp.plannedIdentity, resp.plannedPrivate, resp.requiresReplace,
    resp.diagnostics⟩

/-- What an apply comes to: a delete leaves no state. -/
inductive Applied
  | deleted (diagnostics : List Diagnostic)
  | changed (o : Outcome)

def consultApply (req : Wire.ApplyRequest) : Operation σ Applied := do
  let resource ← found (server.registry.resource req.typeName)
  let x ← readApply resource req
  if x.prior.isNull then
    let resp ← call resource.create ⟨x.config, x.planned, req.plannedPrivate, x.plannedIdentity⟩
      ⟨x.config, x.plannedIdentity, req.plannedPrivate, []⟩
    return .changed (.ofResponse x.schema x.identitySchema resp)
  else if x.planned.isNull then
    return .deleted (← call resource.delete ⟨x.prior, x.plannedIdentity⟩ [])
  else
    let resp ← call resource.update ⟨x.config, x.planned, x.prior, req.plannedPrivate, x.plannedIdentity⟩
      ⟨x.planned, x.plannedIdentity, req.plannedPrivate, []⟩
    return .changed (.ofResponse x.schema x.identitySchema resp)

def consultImport (req : Wire.ImportRequest) : Operation σ Outcome := do
  let resource ← found (server.registry.resource req.typeName)
  let schema ← schemaOf resource.schema
  let identitySchema ← identitySchemaOf resource.identitySchema
  let identity ← decodeIdentity identitySchema req.identity "Identity"
  let state ← decode schema none "Imported State"
  let resp ← call resource.importState ⟨req.id, identity⟩ ⟨state, identity, [], []⟩
  return ⟨schema, identitySchema, resp.state, resp.identity, resp.privateBytes, [], resp.diagnostics⟩

def consultData (req : Wire.ConfigRequest) : Operation σ Outcome := do
  let source ← found (server.registry.dataSource req.typeName)
  let schema ← schemaOf source.schema
  let config ← decode schema req.config "Config"
  let resp ← call source.read config ⟨config, []⟩
  return { schema, state := resp.state, diagnostics := resp.diagnostics }

/-! ## Answers -/

def upgradeAnswer (o : Outcome) (p : Payload) (_ : Option IdentityPayload) : Wire.UpgradeResponse :=
  ⟨some p, wire o.diagnostics⟩

def stateAnswer (o : Outcome) (p : Payload) (i : Option IdentityPayload) : Wire.StateResponse :=
  ⟨some p, i, o.privateBytes, wire o.diagnostics⟩

def planAnswer (o : Outcome) (p : Payload) (i : Option IdentityPayload) : Wire.PlanResponse :=
  ⟨some p, o.requiresReplace.map Path.toWire, o.privateBytes, i, wire o.diagnostics⟩

def importAnswer (typeName : String) (o : Outcome) (p : Payload) (i : Option IdentityPayload) : Wire.ImportResponse :=
  ⟨[⟨typeName, some p, o.privateBytes, i⟩], wire o.diagnostics⟩

def dataAnswer (o : Outcome) (p : Payload) (_ : Option IdentityPayload) : Wire.DataResponse :=
  ⟨some p, wire o.diagnostics⟩

def respondApplied (req : Wire.ApplyRequest) : Applied → Operation σ Wire.StateResponse
  | .deleted ds => do
    check ds
    return ⟨req.plannedState, none, req.plannedPrivate, wire ds⟩
  | .changed o  => respond "New State" "New Identity" stateAnswer o

/-- A null state is not delivered. -/
def respondImported (typeName : String) (o : Outcome) : Operation σ Wire.ImportResponse :=
  if o.state.isNull then do
    check o.diagnostics
    return ⟨[], wire o.diagnostics⟩
  else respond "Imported State" "Imported Identity" (importAnswer typeName) o

theorem readResource_eq (req : Wire.ReadRequest) :
    server.readResource req = answer (Wire.StateResponse.mk none none [])
      (server.consultRead req >>= respond "New State" "New Identity" stateAnswer) := by
  unfold readResource consultRead
  simp only [bind_assoc, pure_bind]
  rfl

theorem planResourceChange_eq (req : Wire.PlanRequest) :
    server.planResourceChange req = answer (Wire.PlanResponse.mk none [] [] none)
      (server.consultPlan req >>= respond "Planned State" "Planned Identity" planAnswer) := by
  unfold planResourceChange consultPlan
  simp only [bind_assoc, pure_bind]
  rfl

theorem readDataSource_eq (req : Wire.ConfigRequest) :
    server.readDataSource req = answer (Wire.DataResponse.mk none)
      (server.consultData req >>= respond "State" "" dataAnswer) := by
  unfold readDataSource consultData
  simp only [bind_assoc, pure_bind]
  rfl

theorem importResourceState_eq (req : Wire.ImportRequest) :
    server.importResourceState req = answer (Wire.ImportResponse.mk [])
      (server.consultImport req >>= respondImported req.typeName) := by
  unfold importResourceState consultImport
  simp only [bind_assoc, pure_bind]
  refine congrArg (answer _) (bind_congr fun resource => bind_congr fun schema => bind_congr fun identitySchema => ?_)
  refine bind_congr fun identity => bind_congr fun state => bind_congr fun resp => ?_
  unfold respondImported
  by_cases hnull : resp.state.isNull = true
  · simp only [if_pos hnull]
  · simp only [if_neg hnull]
    rfl

theorem applyResourceChange_eq_consultApply (req : Wire.ApplyRequest) :
    server.applyResourceChange req = answer (Wire.StateResponse.mk none none [])
      (server.consultApply req >>= respondApplied req) := by
  rw [applyResourceChange_eq]
  unfold consultApply
  simp only [bind_assoc]
  refine congrArg (answer _) (bind_congr fun resource => bind_congr fun x => ?_)
  unfold applyChange applyCreate applyDelete applyUpdate
  by_cases hprior : x.prior.isNull = true
  · simp only [if_pos hprior, bind_assoc, pure_bind]
    rfl
  · by_cases hplanned : x.planned.isNull = true
    · simp only [if_neg hprior, if_pos hplanned, bind_assoc, pure_bind]
      rfl
    · simp only [if_neg hprior, if_neg hplanned, bind_assoc, pure_bind]
      rfl

/-- State of another version than the current one is the handler's to upgrade. -/
theorem delivered_upgradeResourceState {req : Wire.UpgradeRequest} {o : Outcome} {s s' : σ}
    (h : exec (server.consultUpgrade req) s = (.ok o, s'))
    (hversion : req.version ≠ (o.schema.map Schema.version).getD 0) :
    Delivered o (upgradeAnswer o) (Wire.UpgradeResponse.mk none) ((server.upgradeResourceState req).run s).1 := by
  unfold consultUpgrade at h
  simp only [exec_bind_eq_ok] at h
  obtain ⟨resource, s₁, hresource, schema, s₂, hschema, nullState, s₃, hnull, resp, s₄, hresp, ho⟩ := h
  obtain ⟨rfl, rfl⟩ := exec_pure_eq_ok.1 ho
  have hrun : ((server.upgradeResourceState req).run s).1 = answered (Wire.UpgradeResponse.mk none)
      (exec (respond "Upgraded State" "" upgradeAnswer
        { schema, state := resp.state, diagnostics := resp.diagnostics } : Operation σ _) s₄).1 := by
    unfold upgradeResourceState
    rw [run_answer_of_exec hresource, exec_bind, hschema]
    dsimp only
    rw [exec_bind, hnull]
    dsimp only
    rw [if_neg hversion, exec_bind, hresp]
    rfl
  rw [hrun]
  exact delivered_respond "Upgraded State" "" upgradeAnswer _ _ s₄

end Server

end ProviderProtocol
