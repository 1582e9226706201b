import ProviderProtocol.Capability.Double
import ProviderProtocol.Proofs.Codec.Schema
import ProviderProtocol.Proofs.Json.Value
import ProviderProtocol.Proofs.Server.Results
/-!
# Doing nothing is transparent

A response is filled, before a handler gets it, with what doing nothing amounts to.  So a stand-in that only reports its
schemas answers what it was asked with: a read gives back the current state, a create the configuration, an update the
plan, a data source its configuration, and an import finds nothing (`doing_nothing_is_transparent`).  What was decoded,
from msgpack or from JSON, conforms to the schema it was decoded against and so can be encoded again.
-/
namespace ProviderProtocol

/-- The stand-in that reports these schemas and does nothing else. -/
def ResourceDouble.reporting (schema : Schema) : Option IdentitySchema → ResourceDouble σ
  | none   => ofSchema schema
  | some i => (ofSchema schema).withIdentitySchema i

namespace Server

open Operation

/-- Well-formed, and with value types nested at most 500 levels: what is decoded can be encoded again. -/
structure Encodable (schema : Schema) (identitySchema : Option IdentitySchema) : Prop where
  schema : schema.WellFormed ∧ schema.valueType.depth ≤ 500
  identitySchema : ∀ i, identitySchema = some i → i.WellFormed ∧ i.valueType.depth ≤ 500

/-- The response carries this state, this identity and these private bytes, and no diagnostic. -/
def Carries (schema : Schema) (identitySchema : Option IdentitySchema) (state : Value) (identity : Option Value)
    (privateBytes : Bytes) (resp : Wire.StateResponse) : Prop :=
  ∃ p i, resp = ⟨some p, i, privateBytes, []⟩ ∧ Payload.decodeFor (some schema) (some p) = .ok state ∧
    IdentityPayload.decodeFor identitySchema i = .ok identity

/-- What a resource of this name answers that only reports its schemas, to requests that can be read. -/
structure ResourceTransparent (server : Server σ) (name : String) (schema : Schema)
    (identitySchema : Option IdentitySchema) (s : σ) : Prop where
  read : ∀ (req : Wire.ReadRequest) current identity, req.typeName = name →
    Payload.decodeFor (some schema) req.currentState = .ok current →
    IdentityPayload.decodeFor identitySchema req.currentIdentity = .ok identity →
    current.Sized → (∀ v, identity = some v → v.Sized) →
    Carries schema identitySchema current identity req.privateBytes ((server.readResource req).run s).1
  create : ∀ (req : Wire.ApplyRequest) x s', req.typeName = name →
    ApplyInput.Reads (ResourceDouble.reporting schema identitySchema).resource req s s' x →
    x.prior.isNull = true → x.config.Sized → (∀ v, x.plannedIdentity = some v → v.Sized) →
    Carries schema identitySchema x.config x.plannedIdentity req.plannedPrivate
      ((server.applyResourceChange req).run s).1
  update : ∀ (req : Wire.ApplyRequest) x s', req.typeName = name →
    ApplyInput.Reads (ResourceDouble.reporting schema identitySchema).resource req s s' x →
    x.prior.isNull = false → x.planned.isNull = false → x.planned.Sized →
    (∀ v, x.plannedIdentity = some v → v.Sized) →
    Carries schema identitySchema x.planned x.plannedIdentity req.plannedPrivate
      ((server.applyResourceChange req).run s).1
  importNothing : ∀ (req : Wire.ImportRequest) identity, req.typeName = name →
    IdentityPayload.decodeFor identitySchema req.identity = .ok identity →
    ((server.importResourceState req).run s).1 = ⟨[], []⟩

/-- What a data source of this name answers that only reports its schema, to requests that can be read. -/
def DataTransparent (server : Server σ) (name : String) (schema : Schema) (s : σ) : Prop :=
  ∀ (req : Wire.ConfigRequest) config, req.typeName = name →
    Payload.decodeFor (some schema) req.config = .ok config → config.Sized →
    ∃ p, ((server.readDataSource req).run s).1 = ⟨some p, []⟩ ∧
      Payload.decodeFor (some schema) (some p) = .ok config

/-! ## Untouched responses -/

/-- What is left of a response that nothing was done to. -/
def untouched (schema : Schema) (identitySchema : Option IdentitySchema) (state : Value) (identity : Option Value)
    (privateBytes : Bytes) : Outcome :=
  ⟨some schema, identitySchema, state, identity, privateBytes, [], []⟩

section

variable {schema : Schema} {identitySchema : Option IdentitySchema} {state : Value} {identity : Option Value}
  {privateBytes : Bytes} {p : Option Payload} {q : Option IdentityPayload}

section

variable (h : Encodable schema identitySchema) (hstate : Payload.decodeFor (some schema) p = .ok state)
  (hidentity : IdentityPayload.decodeFor identitySchema q = .ok identity)

include h hidentity

theorem Encodable.identity_inhabits {v : Value} (hv : identity = some v) :
    ∃ i, identitySchema = some i ∧ v.Inhabits i.valueType :=
  IdentityPayload.decodeFor_inhabits (fun i hi => (h.identitySchema i hi).1) (hv ▸ hidentity)

include hstate

theorem untouched_conforms : (untouched schema identitySchema state identity privateBytes).Conforms := by
  refine ⟨⟨schema, rfl, (Payload.decodeFor_inhabits h.schema.1 p state hstate).1⟩, fun v hv => ?_⟩
  obtain ⟨i, hi, hinhabits⟩ := h.identity_inhabits hidentity hv
  exact ⟨i, hi, hinhabits.1⟩

theorem untouched_limited (hsized : state.Sized) (hisized : ∀ v, identity = some v → v.Sized) :
    (untouched schema identitySchema state identity privateBytes).Limited where
  schema s hs := by
    cases hs
    exact h.schema.2
  identitySchema i hi := (h.identitySchema i hi).2
  state := ⟨(Payload.decodeFor_inhabits h.schema.1 p state hstate).2, hsized⟩
  identity v hv := by
    obtain ⟨i, -, hinhabits⟩ := h.identity_inhabits hidentity hv
    exact ⟨hinhabits.2, hisized v hv⟩

theorem carries_of_delivered {resp : Wire.StateResponse}
    (hsized : state.Sized) (hisized : ∀ v, identity = some v → v.Sized)
    (hresp : Delivered (untouched schema identitySchema state identity privateBytes)
      (stateAnswer (untouched schema identitySchema state identity privateBytes)) (Wire.StateResponse.mk none none [])
      resp) :
    Carries schema identitySchema state identity privateBytes resp := by
  have hlim : (untouched schema identitySchema state identity privateBytes).Limited :=
    untouched_limited h hstate hidentity hsized hisized
  obtain ⟨p', i', rfl, hp, hi⟩ := hresp.full_of_conforms rfl (untouched_conforms h hstate hidentity)
  exact ⟨p', i', rfl, hlim.state_decodes hp, hlim.identity_decodes hi⟩

end

/-! ## Consulting a stand-in that does nothing -/

variable {server : Server σ} {s s' : σ}

theorem exec_schemaOf_reporting :
    exec (schemaOf (ResourceDouble.reporting schema identitySchema).resource.schema) s = (.ok (some schema), s) := by
  cases identitySchema with
  | none   => rfl
  | some i => rfl

theorem exec_identitySchemaOf_reporting :
    exec (identitySchemaOf (ResourceDouble.reporting schema identitySchema).resource.identitySchema) s =
      (.ok identitySchema, s) := by
  cases identitySchema with
  | none   => rfl
  | some i => rfl

/-- It is silent about everything but its schemas. -/
theorem reporting_passes (schema : Schema) (identitySchema : Option IdentitySchema) :
    let r : Resource σ := (ResourceDouble.reporting schema identitySchema).resource
    r.read = .pass ∧ r.create = .pass ∧ r.update = .pass ∧ r.importState = .pass := by
  cases identitySchema with
  | none   => exact ⟨rfl, rfl, rfl, rfl⟩
  | some i => exact ⟨rfl, rfl, rfl, rfl⟩

theorem exec_call_pass (req : Request) (resp : Response) (s : σ) :
    exec (call (.pass : Handler σ Request Response) req resp) s = (.ok resp, s) := rfl

theorem reads_of_reporting {req : Wire.ApplyRequest} {x : ApplyInput}
    (hx : x.Reads (ResourceDouble.reporting schema identitySchema).resource req s s') :
    x.schema = some schema ∧ x.identitySchema = identitySchema := by
  obtain ⟨s₁, hschema, hidentity⟩ := hx.schemas
  have hs := (exec_schemaOf_eq_ok.2 hschema).symm.trans exec_schemaOf_reporting
  have hi := (exec_identitySchemaOf_eq_ok.2 hidentity).symm.trans exec_identitySchemaOf_reporting
  simp only [Prod.mk.injEq, Except.ok.injEq] at hs hi
  exact ⟨hs.1, hi.1⟩

section

variable {name : String}
  (hr : server.registry.resource name = .ok (ResourceDouble.reporting schema identitySchema).resource)

include hr

theorem exec_consultRead_reporting {req : Wire.ReadRequest} (hname : req.typeName = name)
    (hstate : Payload.decodeFor (some schema) req.currentState = .ok state)
    (hidentity : IdentityPayload.decodeFor identitySchema req.currentIdentity = .ok identity) :
    exec (server.consultRead req) s = (.ok (untouched schema identitySchema state identity req.privateBytes), s) := by
  unfold consultRead decode decodeIdentity
  simp only [exec_bind_eq_ok, exec_orHalt_eq_ok]
  rw [hname, hr]
  refine ⟨_, s, rfl, _, s, exec_schemaOf_reporting, _, s, exec_identitySchemaOf_reporting, _, s, ⟨hstate, rfl⟩, _, s,
    ⟨hidentity, rfl⟩, ?_⟩
  rw [(reporting_passes schema identitySchema).1]
  exact ⟨_, s, exec_call_pass _ _ _, rfl⟩

theorem exec_consultApply_reporting {req : Wire.ApplyRequest} {x : ApplyInput} (hname : req.typeName = name)
    (hx : x.Reads (ResourceDouble.reporting schema identitySchema).resource req s s')
    (hkeep : x.prior.isNull = true ∨ x.planned.isNull = false) :
    exec (server.consultApply req) s = (.ok (.changed (untouched schema identitySchema
      (if x.prior.isNull then x.config else x.planned) x.plannedIdentity req.plannedPrivate)), s') := by
  obtain ⟨hschema, hischema⟩ := reads_of_reporting hx
  obtain ⟨-, hcreate, hupdate, -⟩ := reporting_passes (σ := σ) schema identitySchema
  unfold consultApply
  rw [exec_bind_eq_ok, hname, hr]
  refine ⟨_, s, rfl, ?_⟩
  rw [exec_bind_eq_ok]
  refine ⟨x, s', readApply_eq_ok.2 hx, ?_⟩
  rw [hcreate, hupdate, hschema, hischema]
  by_cases hprior : x.prior.isNull = true
  · rw [if_pos hprior, if_pos hprior]
    rfl
  · have hplanned : ¬ x.planned.isNull = true := by simpa [hprior] using hkeep
    rw [if_neg hprior, if_neg hprior, if_neg hplanned]
    rfl

theorem exec_consultImport_reporting {req : Wire.ImportRequest} (hname : req.typeName = name)
    (hidentity : IdentityPayload.decodeFor identitySchema req.identity = .ok identity) :
    exec (server.consultImport req) s =
      (.ok (untouched schema identitySchema (.null schema.valueType) identity []), s) := by
  unfold consultImport decode decodeIdentity
  simp only [exec_bind_eq_ok, exec_orHalt_eq_ok]
  rw [hname, hr]
  refine ⟨_, s, rfl, _, s, exec_schemaOf_reporting, _, s, exec_identitySchemaOf_reporting, _, s, ⟨hidentity, rfl⟩, _, s,
    ⟨rfl, rfl⟩, ?_⟩
  rw [(reporting_passes schema identitySchema).2.2.2]
  exact ⟨_, s, exec_call_pass _ _ _, rfl⟩

theorem resourceTransparent_of_reporting (h : Encodable schema identitySchema) (s : σ) :
    ResourceTransparent server name schema identitySchema s where
  read req current identity hname hstate hidentity hsized hisized := by
    rw [readResource_eq, run_answer_of_exec (exec_consultRead_reporting hr hname hstate hidentity)]
    exact carries_of_delivered h hstate hidentity hsized hisized (delivered_respond _ _ stateAnswer _ _ s)
  create req x s' hname hx hprior hsized hisized := by
    have hexec := exec_consultApply_reporting hr hname hx (.inl hprior)
    rw [if_pos hprior] at hexec
    obtain ⟨hschema, hischema⟩ := reads_of_reporting hx
    rw [applyResourceChange_eq_consultApply, run_answer_of_exec hexec]
    exact carries_of_delivered h (hschema ▸ hx.config) (hischema ▸ hx.plannedIdentity) hsized hisized
      (delivered_respond _ _ stateAnswer _ _ s')
  update req x s' hname hx hprior hplanned hsized hisized := by
    have hexec := exec_consultApply_reporting hr hname hx (.inr hplanned)
    have hthere : ¬ x.prior.isNull = true := by simp [hprior]
    rw [if_neg hthere] at hexec
    obtain ⟨hschema, hischema⟩ := reads_of_reporting hx
    rw [applyResourceChange_eq_consultApply, run_answer_of_exec hexec]
    exact carries_of_delivered h (hschema ▸ hx.planned) (hischema ▸ hx.plannedIdentity) hsized hisized
      (delivered_respond _ _ stateAnswer _ _ s')
  importNothing req identity hname hidentity :=
    importResourceState_of_null (exec_consultImport_reporting hr hname hidentity) rfl

end

theorem dataTransparent_of_reporting {name : String}
    (hr : server.registry.dataSource name = .ok (DataSourceDouble.ofSchema schema).dataSource)
    (h : Encodable schema none) (s : σ) : DataTransparent server name schema s := by
  intro req config hname hconfig hsized
  have hexec : exec (server.consultData req) s = (.ok (untouched schema none config none []), s) := by
    unfold consultData decode
    simp only [exec_bind_eq_ok, exec_orHalt_eq_ok]
    rw [hname, hr]
    exact ⟨_, s, rfl, _, s, rfl, _, s, ⟨hconfig, rfl⟩, _, s, exec_call_pass _ _ _, rfl⟩
  have hidentity : IdentityPayload.decodeFor none none = .ok none := rfl
  have hlim : (untouched schema none config none []).Limited :=
    untouched_limited h hconfig hidentity hsized (fun v hv => nomatch hv)
  rw [readDataSource_eq]
  obtain ⟨p, i, hresp, hp, _⟩ :=
    (delivered_of_exec hexec _ _ dataAnswer).full_of_conforms rfl (untouched_conforms h hconfig hidentity)
  exact ⟨p, hresp, hlim.state_decodes hp⟩

end

/-- **Doing nothing is transparent**, whatever else is registered. -/
theorem doing_nothing_is_transparent (server : Server σ) {schema : Schema} {identitySchema : Option IdentitySchema}
    (h : Encodable schema identitySchema) (s : σ) :
    (∀ name, server.registry.resource name = .ok (ResourceDouble.reporting schema identitySchema).resource →
      ResourceTransparent server name schema identitySchema s) ∧
    ∀ name, server.registry.dataSource name = .ok (DataSourceDouble.ofSchema schema).dataSource →
      DataTransparent server name schema s :=
  ⟨fun _ hr => resourceTransparent_of_reporting hr h s,
    fun _ hr => dataTransparent_of_reporting hr ⟨h.schema, fun _ hi => nomatch hi⟩ s⟩

/-! ### Endpoints by stand-ins

The state comes as JSON and the identity as msgpack; both come back as msgpack. -/

def idleServer : Server Unit where
  registry :=
    (({ provider := {} : Registry Unit }).addResource "endpoint"
      (ResourceDouble.reporting endpointSchema (some endpointIdentity)).resource).addDataSource "endpoint"
      (DataSourceDouble.ofSchema endpointSchema).dataSource

def savedJson : Json := .object [("id", .string "e-1"), ("ports", .array [.number (.int 22 (by decide))])]

def savedEndpoint : Payload := ⟨[], Text.Utf8.encode savedJson.text⟩

def decodedEndpoint : Value :=
  .known endpointSchema.valueType
    (.map [("id", .ofString "e-1"), ("ports", .known (.set .number) (.list [.ofNumber (.int 22 (by decide))]))])

theorem ofBytes?_savedEndpoint : Json.ofBytes? savedEndpoint.json = some savedJson :=
  have htabular : savedJson.Tabular := ⟨by decide, trivial, ⟨trivial, trivial⟩, trivial⟩
  Json.ofBytes?_text ⟨trivial, ⟨trivial, trivial⟩, trivial⟩ htabular (by decide)

theorem decodeFor_savedEndpoint :
    Payload.decodeFor (some endpointSchema) (some savedEndpoint) = .ok decodedEndpoint := by
  have hsome : savedEndpoint.json.isEmpty = false := by decide +kernel
  unfold Payload.decodeFor Payload.decode
  dsimp only
  rw [ofBytes?_savedEndpoint, hsome]
  rfl

theorem decodedEndpoint_sized : decodedEndpoint.Sized :=
  have hid : (Text.Utf8.encode "e-1").length < 2 ^ 32 := by decide
  ⟨by decide, ⟨by decide, hid⟩, ⟨by decide, by decide, trivial, trivial⟩, trivial⟩

/-- A plan in which the id is still unknown; an identity is sent in the same form. -/
def plannedEndpoint : Payload := ⟨endpoint.toMsgpack.write, []⟩

theorem decodeFor_plannedEndpoint :
    Payload.decodeFor (some endpointSchema) (some plannedEndpoint) = .ok endpoint ∧
      IdentityPayload.decodeFor (some endpointIdentity) (some ⟨some plannedEndpoint⟩) = .ok (some endpoint) := by
  have hwf : endpoint.WellFormed := by decide
  have hendpoint : ∀ v ∈ some endpoint, v.WellFormed ∧ v.Sized := fun v hv => by
    cases hv
    exact ⟨hwf, endpoint_sized⟩
  obtain ⟨-, hback⟩ := Payload.encode_roundTrips (t := endpointSchema.valueType) (by decide) hwf endpoint_sized
  exact ⟨hback plannedEndpoint rfl, (IdentityPayload.encodeFor_roundTrips (by decide) hendpoint).2 _ rfl⟩

/-- A create if there is no prior state, and else an update. -/
def applyEndpoint (priorState : Option Payload) : Wire.ApplyRequest :=
  ⟨"endpoint", priorState, some plannedEndpoint, some savedEndpoint, [5], some ⟨some plannedEndpoint⟩⟩

/-- A read, a create, which gives back the configuration, an update, which gives back the plan, a data source and an
import. -/
theorem doing_nothing_is_transparent_endpoint :
    Carries endpointSchema (some endpointIdentity) decodedEndpoint (some endpoint) [5]
        ((idleServer.readResource ⟨"endpoint", some savedEndpoint, [5], some ⟨some plannedEndpoint⟩⟩).run ()).1 ∧
      Carries endpointSchema (some endpointIdentity) decodedEndpoint (some endpoint) [5]
        ((idleServer.applyResourceChange (applyEndpoint none)).run ()).1 ∧
      Carries endpointSchema (some endpointIdentity) endpoint (some endpoint) [5]
        ((idleServer.applyResourceChange (applyEndpoint (some savedEndpoint))).run ()).1 ∧
      (∃ p, ((idleServer.readDataSource ⟨"endpoint", some savedEndpoint⟩).run ()).1 = ⟨some p, []⟩ ∧
        Payload.decodeFor (some endpointSchema) (some p) = .ok decodedEndpoint) ∧
      ((idleServer.importResourceState ⟨"endpoint", "e-1", none⟩).run ()).1 = ⟨[], []⟩ := by
  have hencodable : Encodable endpointSchema (some endpointIdentity) :=
    ⟨by decide, fun i hi => by cases hi; decide⟩
  have hsized : ∀ v, some endpoint = some v → v.Sized := fun v hv => Option.some.inj hv ▸ endpoint_sized
  obtain ⟨hplanned, hidentity⟩ := decodeFor_plannedEndpoint
  have hreads : ∀ priorState prior, Payload.decodeFor (some endpointSchema) priorState = .ok prior →
      ApplyInput.Reads (ResourceDouble.reporting endpointSchema (some endpointIdentity)).resource
        (applyEndpoint priorState) () ()
        ⟨some endpointSchema, some endpointIdentity, prior, endpoint, decodedEndpoint, some endpoint⟩ :=
    fun _ _ hprior => ⟨⟨(), rfl, rfl⟩, hprior, hplanned, decodeFor_savedEndpoint, hidentity⟩
  obtain ⟨resource, source⟩ := doing_nothing_is_transparent idleServer hencodable ()
  have hresource := resource "endpoint" rfl
  have hread := hresource.read ⟨"endpoint", some savedEndpoint, [5], some ⟨some plannedEndpoint⟩⟩ _ _ rfl
    decodeFor_savedEndpoint hidentity decodedEndpoint_sized hsized
  have hcreate := hresource.create _ _ _ rfl (hreads none (.null endpointSchema.valueType) rfl) rfl
    decodedEndpoint_sized hsized
  have hupdate := hresource.update _ _ _ rfl (hreads _ _ decodeFor_savedEndpoint) rfl rfl endpoint_sized hsized
  exact ⟨hread, hcreate, hupdate, source "endpoint" rfl _ _ rfl decodeFor_savedEndpoint decodedEndpoint_sized,
    hresource.importNothing _ none rfl rfl⟩

end Server

end ProviderProtocol
