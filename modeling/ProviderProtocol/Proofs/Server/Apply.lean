import ProviderProtocol.Proofs.Server.Calls
import ProviderProtocol.Server.Resource
/-!
# Applying a change

An apply reads its request in full before it calls any handler that changes something: it asks for both schemas and
decodes the four payloads (`Reads`).  Then it calls exactly one such handler, which the states choose, exactly once; if
the request cannot be read, none at all (`applyResourceChange_lifecycle`).
-/
namespace ProviderProtocol

/-- What an apply reads: the schemas in force and the decoded payloads. -/
structure ApplyInput where
  schema : Option Schema
  identitySchema : Option IdentitySchema
  prior : Value
  planned : Value
  config : Value
  plannedIdentity : Option Value

/-- In state `s` the request can be read in full: neither schema comes with a diagnostic and every payload decodes.
Asking for the schemas leaves state `s'`. -/
structure ApplyInput.Reads (r : Resource σ) (req : Wire.ApplyRequest) (s s' : σ) (x : ApplyInput) : Prop where
  schemas : ∃ s₁, r.schema () {} s = (⟨x.schema, []⟩, s₁) ∧ r.identitySchema () {} s₁ = (⟨x.identitySchema, []⟩, s')
  prior : Payload.decodeFor x.schema req.priorState = .ok x.prior
  planned : Payload.decodeFor x.schema req.plannedState = .ok x.planned
  config : Payload.decodeFor x.schema req.config = .ok x.config
  plannedIdentity : IdentityPayload.decodeFor x.identitySchema req.plannedIdentity = .ok x.plannedIdentity

/-- Is this a call of a create, update or delete handler? -/
def Call.isLifecycle : Call → Bool
  | .resource _ (.create _ _) => true
  | .resource _ (.update _ _) => true
  | .resource _ (.delete _)   => true
  | _                         => false

namespace Server

open Operation

/-! ## Reading and changing -/

def readApply (r : Resource σ) (req : Wire.ApplyRequest) : Operation σ ApplyInput := do
  let schema ← schemaOf r.schema
  let identitySchema ← identitySchemaOf r.identitySchema
  let prior ← decode schema req.priorState "Prior State"
  let planned ← decode schema req.plannedState "Planned State"
  let config ← decode schema req.config "Config"
  let plannedIdentity ← decodeIdentity identitySchema req.plannedIdentity "Planned Identity"
  return ⟨schema, identitySchema, prior, planned, config, plannedIdentity⟩

def applyCreate (r : Resource σ) (req : Wire.ApplyRequest) (x : ApplyInput) : Operation σ Wire.StateResponse := do
  let resp ← call r.create ⟨x.config, x.planned, req.plannedPrivate, x.plannedIdentity⟩
    ⟨x.config, x.plannedIdentity, req.plannedPrivate, []⟩
  encodeState x.schema x.identitySchema resp

def applyDelete (r : Resource σ) (req : Wire.ApplyRequest) (x : ApplyInput) : Operation σ Wire.StateResponse := do
  let ds ← call r.delete ⟨x.prior, x.plannedIdentity⟩ []
  check ds
  return ⟨req.plannedState, none, req.plannedPrivate, wire ds⟩

def applyUpdate (r : Resource σ) (req : Wire.ApplyRequest) (x : ApplyInput) : Operation σ Wire.StateResponse := do
  let resp ← call r.update ⟨x.config, x.planned, x.prior, req.plannedPrivate, x.plannedIdentity⟩
    ⟨x.planned, x.plannedIdentity, req.plannedPrivate, []⟩
  encodeState x.schema x.identitySchema resp

def applyChange (r : Resource σ) (req : Wire.ApplyRequest) (x : ApplyInput) : Operation σ Wire.StateResponse :=
  if x.prior.isNull then applyCreate r req x else if x.planned.isNull then applyDelete r req x else applyUpdate r req x

theorem applyResourceChange_eq (server : Server σ) (req : Wire.ApplyRequest) :
    server.applyResourceChange req = answer (Wire.StateResponse.mk none none [])
      (found (server.registry.resource req.typeName) >>= fun r => readApply r req >>= applyChange r req) := by
  -- both sides are the same steps, bracketed differently
  unfold applyResourceChange readApply applyChange applyCreate applyDelete applyUpdate
  simp only [bind_assoc, pure_bind]

theorem readApply_eq_ok {r : Resource σ} {req : Wire.ApplyRequest} {s s' : σ} {x : ApplyInput} :
    exec (readApply r req) s = (.ok x, s') ↔ x.Reads r req s s' := by
  unfold readApply decode decodeIdentity
  simp only [exec_bind_eq_ok, exec_schemaOf_eq_ok, exec_identitySchemaOf_eq_ok, exec_orHalt_eq_ok, exec_pure_eq_ok]
  constructor
  · rintro ⟨schema, s₁, hs, identitySchema, s₂, hi, prior, _, ⟨hprior, rfl⟩, planned, _, ⟨hplanned, rfl⟩, config, _,
      ⟨hconfig, rfl⟩, identity, _, ⟨hidentity, rfl⟩, rfl, rfl⟩
    exact ⟨⟨s₁, hs, hi⟩, hprior, hplanned, hconfig, hidentity⟩
  · rintro ⟨⟨s₁, hs, hi⟩, hprior, hplanned, hconfig, hidentity⟩
    exact ⟨_, s₁, hs, _, s', hi, _, _, ⟨hprior, rfl⟩, _, _, ⟨hplanned, rfl⟩, _, _, ⟨hconfig, rfl⟩, _, _,
      ⟨hidentity, rfl⟩, rfl, rfl⟩

/-! ## Calls -/

/-- Reading a request asks for the schema, and for that of the identity if the first one came without diagnostics. -/
def readCalls (name : String) (r : Resource σ) : σ → List Call :=
  callsOfBind (schemaOf r.schema) (fun _ => [.resource name .schema]) fun _ _ => [.resource name .identitySchema]

theorem observes_readApply (name : String) (r : Resource σ) (req : Wire.ApplyRequest) :
    Observes (readApply r req) (readApply (r.observed name) req) (readCalls name r) := by
  refine (observes_schemaOf _ _).bind fun schema => (observes_identitySchemaOf _ _).bind_silent fun identitySchema => ?_
  refine (observes_orHalt _ _).bind_silent fun prior => (observes_orHalt _ _).bind_silent fun planned => ?_
  refine (observes_orHalt _ _).bind_silent fun config => (observes_orHalt _ _).bind_silent fun identity => ?_
  exact observes_pure _

theorem readCalls_no_lifecycle (name : String) (r : Resource σ) (s : σ) :
    (readCalls name r s).filter Call.isLifecycle = [] := by
  unfold readCalls callsOfBind
  split
  · rfl
  · rfl

theorem observes_encodeState (schema : Option Schema) (identitySchema : Option IdentitySchema) (resp : StateResponse) :
    Observes (encodeState schema identitySchema resp : Operation σ Wire.StateResponse)
      (encodeState schema identitySchema resp) fun _ => [] := by
  refine (observes_check _).bind_silent fun _ => (observes_orHalt _ _).bind_silent fun newState => ?_
  exact (observes_orHalt _ _).bind_silent fun newIdentity => observes_pure _

/-- The one call that changes something. -/
def changeCall (name : String) (req : Wire.ApplyRequest) (x : ApplyInput) : Call :=
  .resource name <|
    if x.prior.isNull then
      .create ⟨x.config, x.planned, req.plannedPrivate, x.plannedIdentity⟩
        ⟨x.config, x.plannedIdentity, req.plannedPrivate, []⟩
    else if x.planned.isNull then .delete ⟨x.prior, x.plannedIdentity⟩
    else
      .update ⟨x.config, x.planned, x.prior, req.plannedPrivate, x.plannedIdentity⟩
        ⟨x.planned, x.plannedIdentity, req.plannedPrivate, []⟩

theorem observes_applyChange (name : String) (r : Resource σ) (req : Wire.ApplyRequest) (x : ApplyInput) :
    Observes (applyChange r req x) (applyChange (r.observed name) req x) fun _ => [changeCall name req x] := by
  unfold applyChange changeCall
  by_cases hprior : x.prior.isNull = true
  · rw [if_pos hprior, if_pos hprior, if_pos hprior]
    exact (observes_call _ _ _ _).bind_silent fun resp => observes_encodeState _ _ resp
  · rw [if_neg hprior, if_neg hprior, if_neg hprior]
    by_cases hplanned : x.planned.isNull = true
    · rw [if_pos hplanned, if_pos hplanned, if_pos hplanned]
      refine (observes_call _ _ _ _).bind_silent fun ds => ?_
      exact (observes_check ds).bind_silent fun _ => observes_pure _
    · rw [if_neg hplanned, if_neg hplanned, if_neg hplanned]
      exact (observes_call _ _ _ _).bind_silent fun resp => observes_encodeState _ _ resp

def applyCalls (server : Server σ) (req : Wire.ApplyRequest) (s : σ) : List Call :=
  match server.registry.resource req.typeName with
  | .error _ => []
  | .ok r    =>
    callsOfBind (readApply r req) (readCalls req.typeName r) (fun x _ => [changeCall req.typeName req x]) s

theorem run_applyResourceChange_observed (server : Server σ) (req : Wire.ApplyRequest) (s : σ) :
    (server.observed.applyResourceChange req).run (s, []) =
      (((server.applyResourceChange req).run s).1, ((server.applyResourceChange req).run s).2,
        applyCalls server req s) := by
  rw [applyResourceChange_eq, applyResourceChange_eq, applyCalls]
  have hr : server.observed.registry.resource req.typeName =
      (server.registry.resource req.typeName).map fun r => r.observed req.typeName :=
    Registry.resource_observed _ _
  rw [hr]
  cases server.registry.resource req.typeName with
  | error d => rfl
  | ok r    =>
    have hop := (observes_readApply req.typeName r req).bind fun x => observes_applyChange req.typeName r req x
    exact hop.answer _ s

theorem applyCalls_of_reads {server : Server σ} {req : Wire.ApplyRequest} {s s' : σ} {r : Resource σ} {x : ApplyInput}
    (hr : server.registry.resource req.typeName = .ok r) (hx : x.Reads r req s s') :
    (applyCalls server req s).filter Call.isLifecycle = [changeCall req.typeName req x] := by
  have hchange : Call.isLifecycle (changeCall req.typeName req x) = true := by
    unfold changeCall
    split
    · rfl
    · split
      · rfl
      · rfl
  unfold applyCalls
  rw [hr]
  dsimp only
  rw [callsOfBind, readApply_eq_ok.2 hx]
  dsimp only
  rw [List.filter_append, readCalls_no_lifecycle, List.nil_append, List.filter_cons_of_pos hchange]
  rfl

theorem applyCalls_of_not_reads {server : Server σ} {req : Wire.ApplyRequest} {s : σ}
    (h : ∀ r s' x, server.registry.resource req.typeName = .ok r → ¬ ApplyInput.Reads r req s s' x) :
    (applyCalls server req s).filter Call.isLifecycle = [] := by
  unfold applyCalls
  split
  · rfl
  · rename_i r hr
    unfold callsOfBind
    rw [List.filter_append, readCalls_no_lifecycle, List.nil_append]
    split
    · rename_i x s' hx
      exact absurd (readApply_eq_ok.1 hx) (h r s' x hr)
    · rfl

/-- What calling the handlers of a change comes to, for a request that starts in state `s`. -/
structure Lifecycle (server : Server σ) (req : Wire.ApplyRequest) (s : σ) (calls : List Call) : Prop where
  create : ∀ {r s' x}, server.registry.resource req.typeName = .ok r → ApplyInput.Reads r req s s' x →
    x.prior.isNull = true → calls.filter Call.isLifecycle = [.resource req.typeName
      (.create ⟨x.config, x.planned, req.plannedPrivate, x.plannedIdentity⟩
        ⟨x.config, x.plannedIdentity, req.plannedPrivate, []⟩)]
  delete : ∀ {r s' x}, server.registry.resource req.typeName = .ok r → ApplyInput.Reads r req s s' x →
    x.prior.isNull = false → x.planned.isNull = true → calls.filter Call.isLifecycle = [.resource req.typeName
      (.delete ⟨x.prior, x.plannedIdentity⟩)]
  update : ∀ {r s' x}, server.registry.resource req.typeName = .ok r → ApplyInput.Reads r req s s' x →
    x.prior.isNull = false → x.planned.isNull = false → calls.filter Call.isLifecycle = [.resource req.typeName
      (.update ⟨x.config, x.planned, x.prior, req.plannedPrivate, x.plannedIdentity⟩
        ⟨x.planned, x.plannedIdentity, req.plannedPrivate, []⟩)]
  nothing : (∀ r s' x, server.registry.resource req.typeName = .ok r → ¬ ApplyInput.Reads r req s s' x) →
    calls.filter Call.isLifecycle = []

theorem applyCalls_lifecycle (server : Server σ) (req : Wire.ApplyRequest) (s : σ) :
    Lifecycle server req s (applyCalls server req s) where
  create hr hx hprior := by
    rw [applyCalls_of_reads hr hx, changeCall, if_pos hprior]
  delete hr hx hprior hplanned := by
    rw [applyCalls_of_reads hr hx, changeCall, hprior, hplanned]
    rfl
  update hr hx hprior hplanned := by
    rw [applyCalls_of_reads hr hx, changeCall, hprior, hplanned]
    rfl
  nothing := applyCalls_of_not_reads

/-! ## The answer to a delete -/

theorem run_applyResourceChange_of_reads {server : Server σ} {req : Wire.ApplyRequest} {s s' : σ} {r : Resource σ}
    {x : ApplyInput} (hr : server.registry.resource req.typeName = .ok r) (hx : x.Reads r req s s') :
    (server.applyResourceChange req).run s =
      (answer (Wire.StateResponse.mk none none []) (applyChange r req x)).run s' := by
  rw [applyResourceChange_eq, run_answer, run_answer, hr]
  have hexec : exec (found (.ok r) >>= fun r => readApply r req >>= applyChange r req) s =
      exec (applyChange r req x) s' := by
    rw [exec_bind, exec_found]
    show exec (readApply r req >>= applyChange r req) s = _
    rw [exec_bind, readApply_eq_ok.2 hx]
  rw [hexec]

theorem run_applyDelete {r : Resource σ} {req : Wire.ApplyRequest} {s : σ} {x : ApplyInput}
    (h : hasErrors (r.delete ⟨x.prior, x.plannedIdentity⟩ [] s).1 = false) :
    ((answer (Wire.StateResponse.mk none none []) (applyDelete r req x)).run s).1 =
      ⟨req.plannedState, none, req.plannedPrivate, wire (r.delete ⟨x.prior, x.plannedIdentity⟩ [] s).1⟩ := by
  rw [run_answer]
  unfold applyDelete
  rw [exec_bind, exec_call]
  dsimp only
  rw [exec_bind, exec_check, h]
  rfl

/-- **An apply calls exactly one of create, update and delete, once, if it can read its request, and none otherwise.**
After a delete without an error the planned payload is the new state, as it was sent. -/
theorem applyResourceChange_lifecycle (server : Server σ) (req : Wire.ApplyRequest) (s : σ) :
    (∃ calls, (server.observed.applyResourceChange req).run (s, []) =
        (((server.applyResourceChange req).run s).1, ((server.applyResourceChange req).run s).2, calls) ∧
      Lifecycle server req s calls) ∧
    ∀ r s' x, server.registry.resource req.typeName = .ok r → ApplyInput.Reads r req s s' x →
      x.prior.isNull = false → x.planned.isNull = true →
      hasErrors (r.delete ⟨x.prior, x.plannedIdentity⟩ [] s').1 = false →
      let resp := ((server.applyResourceChange req).run s).1
      resp.newState = req.plannedState ∧ resp.newIdentity = none ∧
        ∃ t, Payload.decodeFor x.schema resp.newState = .ok (.null t) := by
  refine ⟨⟨_, run_applyResourceChange_observed server req s, applyCalls_lifecycle server req s⟩, ?_⟩
  intro r s' x hr hx hprior hplanned hds
  have hresp : ((server.applyResourceChange req).run s).1 =
      ⟨req.plannedState, none, req.plannedPrivate, wire (r.delete ⟨x.prior, x.plannedIdentity⟩ [] s').1⟩ := by
    rw [run_applyResourceChange_of_reads hr hx, applyChange, hprior, hplanned]
    exact run_applyDelete hds
  dsimp only
  rw [hresp]
  refine ⟨rfl, rfl, x.planned.ty, ?_⟩
  rw [hx.planned]
  cases hp : x.planned with
  | null t    => rfl
  | unknown t => rw [hp] at hplanned; cases hplanned
  | known t c => rw [hp] at hplanned; cases hplanned

/-! ### Buckets

A provider that counts its deletions and has buckets, which it deletes with a warning. -/

def bucketSchema : Schema := (Schema.new 0).addAttribute "name" (.required .string)

def bucket (name : String) : Value := .ofAttributes [("name", .ofString name)]

def bucketResource : Resource Nat where
  schema := reportSchema (some bucketSchema)
  delete _ ds n := (ds ++ [.warning "Bucket was not empty" none], n + 1)

def bucketServer : Server Nat := ⟨({ provider := {} : Registry Nat }).addResource "bucket" bucketResource, {}⟩

/-- A bucket in the prior state and none in the planned one. -/
def bucketRequest : Wire.ApplyRequest := ⟨"bucket", some ⟨(bucket "logs").toMsgpack.write, []⟩, none, none, [7], none⟩

def bucketInput : ApplyInput :=
  ⟨some bucketSchema, none, bucket "logs", .null bucketSchema.valueType, .null bucketSchema.valueType, none⟩

theorem bucketInput_reads : bucketInput.Reads bucketResource bucketRequest 0 0 where
  schemas := ⟨0, rfl, rfl⟩
  prior := rfl
  planned := rfl
  config := rfl
  plannedIdentity := rfl

theorem applyResourceChange_lifecycle_bucket :
    ∃ calls, (bucketServer.observed.applyResourceChange bucketRequest).run (0, []) =
        (⟨none, none, [7], [⟨2, "Bucket was not empty", "", none⟩]⟩, 1, calls) ∧
      calls.filter Call.isLifecycle = [.resource "bucket" (.delete ⟨bucket "logs", none⟩)] ∧
      ((bucketServer.applyResourceChange bucketRequest).run 0).1.newState = bucketRequest.plannedState := by
  obtain ⟨⟨calls, hrun, hlife⟩, hdelete⟩ := applyResourceChange_lifecycle bucketServer bucketRequest 0
  exact ⟨calls, hrun, hlife.delete rfl bucketInput_reads rfl rfl,
    (hdelete bucketResource 0 bucketInput rfl bucketInput_reads rfl rfl rfl).1⟩

end Server

end ProviderProtocol
