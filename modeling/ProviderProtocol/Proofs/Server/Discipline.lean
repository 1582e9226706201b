import ProviderProtocol.Proofs.Server.Guards
/-!
# When a handler is called

A request that names a type calls the handler of its operation at most once, and only after the type is found, every
schema has come without a diagnostic and every payload of the request is decoded (`serve_disciplined`).  A type that is
not found is reported by one error before anything is called; diagnostics that come with a schema are the whole answer.
-/
namespace ProviderProtocol

namespace Server

open Operation

/-! ## Operations with a configuration -/

/-- A configuration is read, and then the handler gets it. -/
theorem guards_configFor {handler : Call → Prop} {h : Handler σ Unit SchemaResponse} {config : Option Payload}
    {note : Call} {k : Handler σ ρ ρ'} {noted : ρ → ρ' → Call} {request : Value → ρ} {seed : Value → ρ'}
    {f : Value → ρ' → Operation σ β} {f' : Value → ρ' → Operation (σ × List Call) β} (hnote : note.isSchema = true)
    (hown : ∀ v, handler (noted (request v) (seed v)))
    (hschema : ∀ v, (noted (request v) (seed v)).isSchema = false)
    (hf : ∀ v resp, Observes (f v resp) (f' v resp) fun _ => []) :
    Guards handler [.schema h [config]] True (configFor h config >>= fun v => call k (request v) (seed v) >>= f v)
      (configFor (h.observed fun _ _ => note) config >>= fun v =>
        call (k.observed noted) (request v) (seed v) >>= f' v) := by
  unfold configFor
  rw [bind_assoc, bind_assoc]
  refine Guards.schemaOf hnote fun schema => Guards.orHalt fun v hv => Guards.call ?_ (hown v) (hschema v) (hf v)
  simp [hv]

theorem validateResourceConfig_behaves (server : Server σ) (req : Wire.ConfigRequest) (s : σ) :
    Behaves ((TypedRequest.validateResourceConfig req : TypedRequest τ).outline server.registry)
      (server.validateResourceConfig req) (server.observed.validateResourceConfig req) s := by
  refine Guards.behaves (Registry.resource_observed _ _) rfl Registry.missing_of_lookUp fun r => ?_
  exact guards_configFor rfl (fun _ => ⟨_, rfl⟩) (fun _ => rfl) fun _ _ => observes_pure _

theorem validateDataConfig_behaves (server : Server σ) (req : Wire.ConfigRequest) (s : σ) :
    Behaves ((TypedRequest.validateDataConfig req : TypedRequest τ).outline server.registry)
      (server.validateDataConfig req) (server.observed.validateDataConfig req) s := by
  refine Guards.behaves (Registry.dataSource_observed _ _) rfl Registry.missing_of_lookUp fun d => ?_
  exact guards_configFor rfl (fun _ => ⟨_, rfl⟩) (fun _ => rfl) fun _ _ => observes_pure _

theorem validateListConfig_behaves (server : Server σ) (req : Wire.ListRequest) (s : σ) :
    Behaves ((TypedRequest.validateListConfig req : TypedRequest τ).outline server.registry)
      (server.validateListConfig req) (server.observed.validateListConfig req) s := by
  refine Guards.behaves (Registry.listResource_observed _ _) rfl Registry.missing_of_lookUp fun l => ?_
  exact guards_configFor rfl (fun _ => ⟨_, rfl⟩) (fun _ => rfl) fun _ _ => observes_pure _

theorem validateStoreConfig_behaves (server : Server σ) (req : Wire.ConfigRequest) (s : σ) :
    Behaves ((TypedRequest.validateStoreConfig req : TypedRequest τ).outline server.registry)
      (server.validateStoreConfig req) (server.observed.validateStoreConfig req) s := by
  refine Guards.behaves (Registry.stateStore_observed _ _) rfl Registry.missing_of_lookUp fun t => ?_
  exact guards_configFor rfl (fun _ => ⟨_, rfl⟩) (fun _ => rfl) fun _ _ => observes_pure _

theorem configureStateStore_behaves (server : Server σ) (req : Wire.ConfigureStoreRequest) (s : σ) :
    Behaves ((TypedRequest.configureStateStore req : TypedRequest τ).outline server.registry)
      (server.configureStateStore req) (server.observed.configureStateStore req) s := by
  refine Guards.behaves (Registry.stateStore_observed _ _) rfl Registry.missing_of_lookUp fun t => ?_
  refine guards_configFor rfl (fun _ => ⟨_, _, rfl⟩) (fun _ => rfl) fun _ resp => ?_
  exact (observes_check _).bind_silent fun _ => observes_pure _

theorem readDataSource_behaves (server : Server σ) (req : Wire.ConfigRequest) (s : σ) :
    Behaves ((TypedRequest.readDataSource req : TypedRequest τ).outline server.registry) (server.readDataSource req)
      (server.observed.readDataSource req) s := by
  refine Guards.behaves (Registry.dataSource_observed _ _) rfl Registry.missing_of_lookUp fun d => ?_
  refine Guards.schemaOf rfl fun schema => Guards.orHalt fun config hconfig => ?_
  refine Guards.call (by simp [hconfig]) ⟨_, _, rfl⟩ rfl fun resp => (observes_check _).bind_silent fun _ => ?_
  exact (observes_orHalt _ _).bind_silent fun _ => observes_pure _

/-! ## Managed resources -/

theorem upgradeResourceState_behaves (server : Server σ) (req : Wire.UpgradeRequest) (s : σ) :
    Behaves ((TypedRequest.upgradeResourceState req : TypedRequest τ).outline server.registry)
      (server.upgradeResourceState req) (server.observed.upgradeResourceState req) s := by
  refine Guards.behaves (Registry.resource_observed _ _) rfl Registry.missing_of_lookUp fun r => ?_
  refine Guards.schemaOf rfl fun schema => Guards.orHalt fun nullState hnull => ?_
  have hread : True ∧ ∀ p ∈ [none], ∃ v, Payload.decodeFor schema p = .ok v := by simp [hnull]
  by_cases hversion : req.version = (schema.map Schema.version).getD 0
  · rw [if_pos hversion, if_pos hversion]
    refine Guards.of_silent hread ((observes_orHalt _ _).bind_silent fun state => ?_)
    exact (observes_orHalt _ _).bind_silent fun payload => observes_pure _
  · rw [if_neg hversion, if_neg hversion]
    refine Guards.call hread ⟨_, _, rfl⟩ rfl fun resp => (observes_check _).bind_silent fun _ => ?_
    exact (observes_orHalt _ _).bind_silent fun payload => observes_pure _

theorem readResource_behaves (server : Server σ) (req : Wire.ReadRequest) (s : σ) :
    Behaves ((TypedRequest.readResource req : TypedRequest τ).outline server.registry) (server.readResource req)
      (server.observed.readResource req) s := by
  refine Guards.behaves (Registry.resource_observed _ _) rfl Registry.missing_of_lookUp fun r => ?_
  refine Guards.schemaOf rfl fun schema => Guards.identitySchemaOf rfl fun identitySchema => ?_
  refine Guards.orHalt fun currentState hstate => Guards.orHalt fun currentIdentity hidentity => ?_
  refine Guards.call ?_ ⟨_, _, rfl⟩ rfl fun resp => observes_encodeState _ _ resp
  simp [hstate, hidentity]

theorem observes_seedPlan (schema : Option Schema) (config prior proposed : Value) :
    Observes (seedPlan schema config prior proposed : Operation σ Value) (seedPlan schema config prior proposed)
      fun _ => [] := by
  unfold seedPlan
  cases schema with
  | none   => exact observes_pure _
  | some schema =>
    dsimp only
    split
    · exact observes_orHalt _ _
    · exact observes_pure _

theorem planResourceChange_behaves (server : Server σ) (req : Wire.PlanRequest) (s : σ) :
    Behaves ((TypedRequest.planResourceChange req : TypedRequest τ).outline server.registry)
      (server.planResourceChange req) (server.observed.planResourceChange req) s := by
  refine Guards.behaves (Registry.resource_observed _ _) rfl Registry.missing_of_lookUp fun r => ?_
  refine Guards.schemaOf rfl fun schema => Guards.identitySchemaOf rfl fun identitySchema => ?_
  refine Guards.orHalt fun prior hprior => Guards.orHalt fun proposed hproposed => ?_
  refine Guards.orHalt fun config hconfig => Guards.orHalt fun priorIdentity hidentity => ?_
  refine Guards.bind_silent (observes_seedPlan _ _ _ _) fun seed _ _ _ => ?_
  refine Guards.call ?_ ⟨_, _, rfl⟩ rfl fun resp => (observes_check _).bind_silent fun _ => ?_
  · simp [hprior, hproposed, hconfig, hidentity]
  · refine (observes_orHalt _ _).bind_silent fun plannedState => ?_
    exact (observes_orHalt _ _).bind_silent fun plannedIdentity => observes_pure _

theorem applyResourceChange_behaves (server : Server σ) (req : Wire.ApplyRequest) (s : σ) :
    Behaves ((TypedRequest.applyResourceChange req : TypedRequest τ).outline server.registry)
      (server.applyResourceChange req) (server.observed.applyResourceChange req) s := by
  refine Guards.behaves (Registry.resource_observed _ _) rfl Registry.missing_of_lookUp fun r => ?_
  refine Guards.schemaOf rfl fun schema => Guards.identitySchemaOf rfl fun identitySchema => ?_
  refine Guards.orHalt fun prior hprior => Guards.orHalt fun planned hplanned => ?_
  refine Guards.orHalt fun config hconfig => Guards.orHalt fun plannedIdentity hidentity => ?_
  have hread : (True ∧
      ∀ p ∈ [req.priorState, req.plannedState, req.config], ∃ v, Payload.decodeFor schema p = .ok v) ∧
      ∀ p ∈ [req.plannedIdentity], ∃ v, IdentityPayload.decodeFor identitySchema p = .ok v := by
    simp [hprior, hplanned, hconfig, hidentity]
  by_cases hcreate : prior.isNull = true
  · rw [if_pos hcreate, if_pos hcreate]
    exact Guards.call hread ⟨_, rfl, rfl⟩ rfl fun resp => observes_encodeState _ _ resp
  · rw [if_neg hcreate, if_neg hcreate]
    by_cases hdelete : planned.isNull = true
    · rw [if_pos hdelete, if_pos hdelete]
      exact Guards.call hread ⟨_, rfl, rfl⟩ rfl fun ds => (observes_check _).bind_silent fun _ => observes_pure _
    · rw [if_neg hdelete, if_neg hdelete]
      exact Guards.call hread ⟨_, rfl, rfl⟩ rfl fun resp => observes_encodeState _ _ resp

theorem importResourceState_behaves (server : Server σ) (req : Wire.ImportRequest) (s : σ) :
    Behaves ((TypedRequest.importResourceState req : TypedRequest τ).outline server.registry)
      (server.importResourceState req) (server.observed.importResourceState req) s := by
  refine Guards.behaves (Registry.resource_observed _ _) rfl Registry.missing_of_lookUp fun r => ?_
  refine Guards.schemaOf rfl fun schema => Guards.identitySchemaOf rfl fun identitySchema => ?_
  refine Guards.orHalt fun identity hidentity => Guards.orHalt fun state hstate => ?_
  refine Guards.call ?_ ⟨_, _, rfl⟩ rfl fun resp => (observes_check _).bind_silent fun _ => ?_
  · simp [hidentity, hstate]
  · by_cases hnull : resp.state.isNull = true
    · rw [if_pos hnull, if_pos hnull]
      exact observes_pure _
    · rw [if_neg hnull, if_neg hnull]
      refine (observes_orHalt _ _).bind_silent fun imported => ?_
      exact (observes_orHalt _ _).bind_silent fun importedIdentity => observes_pure _

/-! ## State stores -/

theorem getStates_behaves (server : Server σ) (typeName : String) (s : σ) :
    Behaves ((TypedRequest.getStates typeName : TypedRequest τ).outline server.registry) (server.getStates typeName)
      (server.observed.getStates typeName) s := by
  refine Guards.behaves (Registry.stateStore_observed _ _) rfl Registry.missing_of_lookUp fun t => ?_
  exact Guards.call trivial rfl rfl fun resp => (observes_check _).bind_silent fun _ => observes_pure _

theorem deleteState_behaves (server : Server σ) (req : Wire.StateRequest) (s : σ) :
    Behaves ((TypedRequest.deleteState req : TypedRequest τ).outline server.registry) (server.deleteState req)
      (server.observed.deleteState req) s := by
  refine Guards.behaves (Registry.stateStore_observed _ _) rfl Registry.missing_of_lookUp fun t => ?_
  exact Guards.call trivial rfl rfl fun ds => observes_pure _

theorem lockState_behaves (server : Server σ) (req : Wire.LockRequest) (s : σ) :
    Behaves ((TypedRequest.lockState req : TypedRequest τ).outline server.registry) (server.lockState req)
      (server.observed.lockState req) s := by
  refine Guards.behaves (Registry.stateStore_observed _ _) rfl Registry.missing_of_lookUp fun t => ?_
  exact Guards.call trivial rfl rfl fun resp => (observes_check _).bind_silent fun _ => observes_pure _

theorem unlockState_behaves (server : Server σ) (req : Wire.UnlockRequest) (s : σ) :
    Behaves ((TypedRequest.unlockState req : TypedRequest τ).outline server.registry) (server.unlockState req)
      (server.observed.unlockState req) s := by
  refine Guards.behaves (Registry.stateStore_observed _ _) rfl Registry.missing_of_lookUp fun t => ?_
  exact Guards.call trivial rfl rfl fun ds => observes_pure _

theorem readStateBytes_behaves (server : Server σ) (req : Wire.StateRequest) (s : σ) :
    Behaves ((TypedRequest.readStateBytes req : TypedRequest τ).outline server.registry) (server.readStateBytes req)
      (server.observed.readStateBytes req) s := by
  refine Guards.behaves (Registry.stateStore_observed _ _) rfl Registry.missing_of_lookUp fun t => ?_
  exact Guards.call trivial ⟨_, rfl⟩ rfl fun resp => (observes_check _).bind_silent fun _ => observes_pure _

theorem observes_uploaded (e : Except UploadFault α) :
    Observes (uploaded e : Operation σ α) (uploaded e) fun _ => [] := by
  cases e with
  | ok a    => exact observes_pure a
  | error e => exact observes_halt e.diagnostic

theorem writeStateBytes_behaves (server : Server σ) (chunks : List Wire.UploadChunk) (s : σ) :
    Behaves ((TypedRequest.writeStateBytes chunks : TypedRequest τ).outline server.registry)
      (server.writeStateBytes chunks) (server.observed.writeStateBytes chunks) s := by
  cases chunks with
  | nil => exact ⟨[], rfl, disciplined_of_unresolved rfl rfl fun name hname => by cases hname⟩
  | cons first rest =>
    obtain ⟨target, bytes, totalLength, range⟩ := first
    cases target with
    | none => exact ⟨[], rfl, disciplined_of_unresolved rfl rfl fun name hname => by cases hname⟩
    | some target =>
      refine Guards.behaves (Registry.stateStore_observed _ _) rfl Registry.missing_of_lookUp fun t => ?_
      refine Guards.bind_silent (observes_uploaded _) fun uploadedBytes _ _ _ => ?_
      by_cases hlength : totalLength = uploadedBytes.length
      · rw [if_pos hlength, if_pos hlength]
        exact Guards.call trivial ⟨target, uploadedBytes, rfl, rfl⟩ rfl fun ds => observes_pure _
      · rw [if_neg hlength, if_neg hlength]
        exact Guards.of_silent trivial (observes_halt _)

/-! ## Listings -/

/-- What is read before a listing: the request to the list resource, and what to encode the results with. -/
def readListing (l : ListResource σ) (r : Resource σ) (req : Wire.ListRequest) :
    Operation σ (ListRequest × ListContext) := do
  let listSchema ← schemaOf l.schema
  let schema ← schemaOf r.schema
  let identitySchema ← identitySchemaOf r.identitySchema
  let config ← decode listSchema req.config "Config"
  return (⟨config, req.includeObject, req.limit⟩, ⟨req.includeObject, req.limit, schema, identitySchema⟩)

/-- Starting a listing is to find both implementations and to read. -/
theorem startListing_eq (server : Server σ) (req : Wire.ListRequest) :
    startListing server req = found (server.registry.listResource req.typeName) >>= fun l =>
      found (server.registry.resource req.typeName) >>= fun r =>
        readListing l r req >>= fun x => pure (l.list x.1, x.2) := by
  unfold startListing readListing
  simp only [bind_assoc, pure_bind]

theorem exec_startListing {server : Server σ} {req : Wire.ListRequest} {l : ListResource σ} {r : Resource σ}
    (hl : server.registry.listResource req.typeName = .ok l) (hr : server.registry.resource req.typeName = .ok r)
    (s : σ) : exec (startListing server req) s = match exec (readListing l r req) s with
      | (.ok x, s')     => (.ok (l.list x.1, x.2), s')
      | (.error ds, s') => (.error ds, s') := by
  rw [startListing_eq, hl, hr]
  show exec (readListing l r req >>= fun x => pure (l.list x.1, x.2)) s = _
  rw [exec_bind]
  obtain ⟨ending, s'⟩ := exec (readListing l r req) s
  cases ending with
  | ok x     => rfl
  | error ds => rfl

theorem guards_readListing {handler : Call → Prop} (name : String) (l : ListResource σ) (r : Resource σ)
    (req : Wire.ListRequest) :
    Guards handler [.schema l.schema [req.config], .schema r.schema [], .identity r.identitySchema []] True
      (readListing l r req) (readListing (l.observed name) (r.observed name) req) := by
  refine Guards.schemaOf rfl fun listSchema => Guards.schemaOf rfl fun schema => ?_
  refine Guards.identitySchemaOf rfl fun identitySchema => Guards.orHalt fun config hconfig => ?_
  exact Guards.of_silent (by simp [hconfig]) (observes_pure _)

/-- A listing makes no calls of its own. -/
theorem runListing_observed (ctx : ListContext) (emit : Sink τ) (log : List Call) :
    ∀ (listing : Listing σ) (d : Delivery τ), runListing ctx emit (listing.observed log) d =
      (((runListing ctx emit listing d).1, log), (runListing ctx emit listing d).2)
  | .finish _, _      => rfl
  | .push _ resume, _ => runListing_observed ctx emit log (resume _) _

/-- The listing itself, once it is started. -/
def listInto (ctx : ListContext) (emit : Sink τ) (sink : τ) (listing : Listing σ) : σ × τ :=
  let (s, d) := runListing ctx emit listing { sink }
  match d.failure with
  | some ds => (s, ((emit { diagnostics := wire ds }).run d.sink).2)
  | none    => (s, d.sink)

theorem listResource_of_error {server : Server σ} {emit : Sink τ} {req : Wire.ListRequest} {s s' : σ}
    {ds : List Diagnostic} (h : exec (startListing server req) s = (.error ds, s')) (sink : τ) :
    server.listResource emit req s sink = (s', ((emit { diagnostics := wire ds }).run sink).2) := by
  unfold listResource
  rw [show (startListing server req).run.run s = (.error ds, s') from h]

theorem listResource_of_ok {server : Server σ} {emit : Sink τ} {req : Wire.ListRequest} {s s' : σ}
    {listing : σ → Listing σ} {ctx : ListContext} (h : exec (startListing server req) s = (.ok (listing, ctx), s'))
    (sink : τ) : server.listResource emit req s sink = listInto ctx emit sink (listing s') := by
  unfold listResource
  rw [show (startListing server req).run.run s = (.ok (listing, ctx), s') from h]
  rfl

theorem listInto_observed (ctx : ListContext) (emit : Sink τ) (sink : τ) (log : List Call) (listing : Listing σ) :
    listInto ctx emit sink (listing.observed log) =
      (((listInto ctx emit sink listing).1, log), (listInto ctx emit sink listing).2) := by
  unfold listInto
  rw [runListing_observed]
  dsimp only
  split
  · rfl
  · rfl

theorem run_serve_listResource (server : Server σ) (emit : Sink τ) (sink : τ) (req : Wire.ListRequest) (s : σ) :
    (server.serve (.listResource emit sink req)).run s =
      ((server.listResource emit req s sink).2, (server.listResource emit req s sink).1) := rfl

/-- A listing that does not start, next to the same listing on the observed server. -/
theorem behaves_of_start_error {server : Server σ} {emit : Sink τ} {sink : τ} {req : Wire.ListRequest} {s s' : σ}
    {ds : List Diagnostic} {calls : List Call} (hstart : exec (startListing server req) s = (.error ds, s'))
    (hobserved : exec (startListing server.observed req) (s, []) = (.error ds, (s', calls)))
    (h : Disciplined ((TypedRequest.listResource emit sink req).outline server.registry) s
      ((emit { diagnostics := wire ds }).run sink).2 calls) :
    Behaves ((TypedRequest.listResource emit sink req).outline server.registry)
      (server.serve (.listResource emit sink req)) (server.observed.serve (.listResource emit sink req)) s := by
  refine ⟨calls, ?_, ?_⟩
  · rw [run_serve_listResource, run_serve_listResource, listResource_of_error hobserved, listResource_of_error hstart]
    rfl
  · rw [run_serve_listResource, listResource_of_error hstart]
    exact h

theorem behaves_of_start_ok {server : Server σ} {emit : Sink τ} {sink : τ} {req : Wire.ListRequest} {s s' : σ}
    {l : ListResource σ} {x : ListRequest × ListContext} {calls : List Call}
    (hstart : exec (startListing server req) s = (.ok (l.list x.1, x.2), s'))
    (hobserved : exec (startListing server.observed req) (s, []) =
      (.ok ((l.observed req.typeName).list x.1, x.2), (s', calls)))
    (h : ∀ resp, Disciplined ((TypedRequest.listResource emit sink req).outline server.registry) s resp
      (calls ++ [.listResource req.typeName (.list x.1)])) :
    Behaves ((TypedRequest.listResource emit sink req).outline server.registry)
      (server.serve (.listResource emit sink req)) (server.observed.serve (.listResource emit sink req)) s := by
  refine ⟨_, ?_, h _⟩
  have hlist : (l.observed req.typeName).list x.1 (s', calls) =
    (l.list x.1 s').observed (calls ++ [.listResource req.typeName (.list x.1)]) := rfl
  rw [run_serve_listResource, run_serve_listResource, listResource_of_ok hobserved, listResource_of_ok hstart, hlist,
    listInto_observed]
  rfl

theorem listResource_behaves_of_found {server : Server σ} {req : Wire.ListRequest} {l : ListResource σ} {r : Resource σ}
    (hl : server.registry.listResource req.typeName = .ok l) (hr : server.registry.resource req.typeName = .ok r)
    (emit : Sink τ) (sink : τ) (s : σ) :
    Behaves ((TypedRequest.listResource emit sink req).outline server.registry)
      (server.serve (.listResource emit sink req)) (server.observed.serve (.listResource emit sink req)) s := by
  have hl' : server.observed.registry.listResource req.typeName = .ok (l.observed req.typeName) := by
    rw [show server.observed.registry.listResource req.typeName = _ from Registry.listResource_observed _ _, hl]
    rfl
  have hr' : server.observed.registry.resource req.typeName = .ok (r.observed req.typeName) := by
    rw [show server.observed.registry.resource req.typeName = _ from Registry.resource_observed _ _, hr]
    rfl
  have hasks : ((TypedRequest.listResource emit sink req).outline server.registry).asks =
      .ok [.schema l.schema [req.config], .schema r.schema [], .identity r.identitySchema []] := by
    show (server.registry.listResource req.typeName).bind _ = _
    rw [hl, hr]
    rfl
  have hstart := exec_startListing hl hr s
  have hobserved := exec_startListing hl' hr' (s, [])
  -- reading comes before the listing, so it calls no handler at all
  obtain ⟨asked, handled, hexec, trail⟩ :=
    (guards_readListing req.typeName l r req : Guards (fun _ => False) _ _ _ _) s []
  obtain rfl : handled = [] := List.eq_nil_iff_forall_not_mem.2 fun c hc => (trail.own c hc).1
  rw [hexec, List.nil_append, List.append_nil] at hobserved
  cases he : exec (readListing l r req) s with
  | mk ending s' =>
    rw [he] at hstart hobserved trail
    cases ending with
    | error ds =>
      refine behaves_of_start_error hstart hobserved ?_
      have hall := Trail.disciplined hasks { trail with own := fun c hc => by cases hc } fun ds' hds => by
        cases hds
        rfl
      rw [List.append_nil] at hall
      exact hall
    | ok x =>
      refine behaves_of_start_ok hstart hobserved fun resp => ?_
      exact (trail.call ⟨x.1, rfl⟩ rfl).disciplined hasks fun ds hds => by cases hds

theorem listResource_behaves (server : Server σ) (emit : Sink τ) (sink : τ) (req : Wire.ListRequest) (s : σ) :
    Behaves ((TypedRequest.listResource emit sink req).outline server.registry)
      (server.serve (.listResource emit sink req)) (server.observed.serve (.listResource emit sink req)) s := by
  have hl' : server.observed.registry.listResource req.typeName = _ := Registry.listResource_observed _ _
  have hr' : server.observed.registry.resource req.typeName = _ := Registry.resource_observed _ _
  cases hl : server.registry.listResource req.typeName with
  | error d =>
    rw [hl] at hl'
    have hasks : ((TypedRequest.listResource emit sink req).outline server.registry).asks = .error d := by
      show (server.registry.listResource req.typeName).bind _ = _
      rw [hl]
      rfl
    have hkind : TypedRequest.listingKind server.registry req.typeName = "ListResource" := by
      rw [TypedRequest.listingKind, hl]
    refine behaves_of_start_error (by rw [startListing_eq, hl]; rfl) (by rw [startListing_eq, hl']; rfl) ?_
    exact disciplined_of_unresolved hasks rfl fun name hname =>
      (Registry.missing_of_lookUp d name hl hname).trans (congrArg (Registry.missing · name) hkind.symm)
  | ok l =>
    cases hr : server.registry.resource req.typeName with
    | error d =>
      rw [hl] at hl'
      rw [hr] at hr'
      have hasks : ((TypedRequest.listResource emit sink req).outline server.registry).asks = .error d := by
        show (server.registry.listResource req.typeName).bind _ = _
        rw [hl, hr]
        rfl
      have hkind : TypedRequest.listingKind server.registry req.typeName = "Resource" := by
        rw [TypedRequest.listingKind, hl]
      refine behaves_of_start_error (by rw [startListing_eq, hl, hr]; rfl) (by rw [startListing_eq, hl', hr']; rfl) ?_
      exact disciplined_of_unresolved hasks rfl fun name hname =>
        (Registry.missing_of_lookUp d name hr hname).trans (congrArg (Registry.missing · name) hkind.symm)
    | ok r => exact listResource_behaves_of_found hl hr emit sink s

/-- **A handler is called at most once, and not before its type is found, all schemas have come without a diagnostic and
all payloads are decoded.**  A type that is not found is one error and no call; diagnostics that come with a schema are
the whole answer. -/
theorem serve_disciplined (server : Server σ) (req : TypedRequest τ) (s : σ) :
    Behaves (req.outline server.registry) (server.serve req) (server.observed.serve req) s := by
  cases req with
  | validateResourceConfig req      => exact validateResourceConfig_behaves server req s
  | upgradeResourceState req        => exact upgradeResourceState_behaves server req s
  | readResource req                => exact readResource_behaves server req s
  | planResourceChange req          => exact planResourceChange_behaves server req s
  | applyResourceChange req         => exact applyResourceChange_behaves server req s
  | importResourceState req         => exact importResourceState_behaves server req s
  | validateDataConfig req          => exact validateDataConfig_behaves server req s
  | readDataSource req              => exact readDataSource_behaves server req s
  | validateListConfig req          => exact validateListConfig_behaves server req s
  | listResource emit sink req      => exact listResource_behaves server emit sink req s
  | validateStoreConfig req         => exact validateStoreConfig_behaves server req s
  | configureStateStore req         => exact configureStateStore_behaves server req s
  | getStates typeName              => exact getStates_behaves server typeName s
  | deleteState req                 => exact deleteState_behaves server req s
  | lockState req                   => exact lockState_behaves server req s
  | unlockState req                 => exact unlockState_behaves server req s
  | readStateBytes req              => exact readStateBytes_behaves server req s
  | writeStateBytes chunks          => exact writeStateBytes_behaves server chunks s

/-! ### Drafts

A provider whose only schema is a draft, which it warns of; it counts the reads of its documents. -/

def draftResource : Resource Nat where
  schema _ resp := pure { resp with schema := some (.new 0), diagnostics := [.warning "Schema is a draft" none] }
  read _ resp n := (resp, n + 1)

def draftServer : Server Nat := ⟨({ provider := {} : Registry Nat }).addResource "document" draftResource, {}⟩

/-- A document is not read, because of the warning; that a folder is not known is told before anything is called. -/
theorem serve_disciplined_draft :
    (∃ calls,
        (draftServer.observed.serve (.readResource ⟨"document", none, [7], none⟩ : TypedRequest Unit)).run (0, []) =
          (⟨none, none, [], [⟨2, "Schema is a draft", "", none⟩]⟩, 0, calls) ∧ ∀ c ∈ calls, c.isSchema = true) ∧
      (draftServer.observed.serve (.readResource ⟨"folder", none, [7], none⟩ : TypedRequest Unit)).run (0, []) =
        (⟨none, none, [], [(Registry.missing "Resource" "folder").toWire]⟩, 0, []) ∧
      (Registry.missing "Resource" "folder").ReportsMissing "Resource" "folder" := by
  constructor
  · obtain ⟨calls, hrun, h⟩ := serve_disciplined draftServer
      (.readResource ⟨"document", none, [7], none⟩ : TypedRequest Unit) 0
    exact ⟨calls, hrun, (h.raised _ rfl (List.cons_ne_nil _ _)).2⟩
  · obtain ⟨calls, hrun, h⟩ := serve_disciplined draftServer
      (.readResource ⟨"folder", none, [7], none⟩ : TypedRequest Unit) 0
    rw [(h.unresolved _ rfl).2] at hrun
    exact ⟨hrun, (h.missing _ "folder" rfl rfl).2⟩

end Server

end ProviderProtocol
