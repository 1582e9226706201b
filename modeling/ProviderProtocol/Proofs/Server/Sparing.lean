import ProviderProtocol.Proofs.Server.Listing
import ProviderProtocol.Proofs.StateStore.Spares
/-!
# Servers that leave a cell alone

If nothing that is registered touches a cell of the provider's state, no request does (`Registry.Spares`).  Stores can
be excepted for what they do when they are configured; then every request leaves the cell alone that configures none of
these (`serve_keeps`, `serveProvider_keeps`).
-/
namespace ProviderProtocol

variable {cell : Cell σ α}

/-! ## Implementations -/

structure Provider.Spares (cell : Cell σ α) (p : Provider σ) : Prop where
  schema : p.schema.Spares cell
  validateConfig : p.validateConfig.Spares cell
  configure : p.configure.Spares cell
  stop : p.stop.Spares cell

structure Resource.Spares (cell : Cell σ α) (r : Resource σ) : Prop where
  schema : r.schema.Spares cell
  identitySchema : r.identitySchema.Spares cell
  validateConfig : r.validateConfig.Spares cell
  create : r.create.Spares cell
  read : r.read.Spares cell
  update : r.update.Spares cell
  delete : r.delete.Spares cell
  planChange : r.planChange.Spares cell
  importState : r.importState.Spares cell
  upgradeState : r.upgradeState.Spares cell

structure DataSource.Spares (cell : Cell σ α) (d : DataSource σ) : Prop where
  schema : d.schema.Spares cell
  validateConfig : d.validateConfig.Spares cell
  read : d.read.Spares cell

structure ListResource.Spares (cell : Cell σ α) (l : ListResource σ) : Prop where
  schema : l.schema.Spares cell
  validateConfig : l.validateConfig.Spares cell
  /-- Whatever the listing is told. -/
  list : ∀ req s pushed s', (l.list req s).Pushes pushed s' → cell.get s' = cell.get s

/-- Nothing touches the cell, unless it is to configure a store of one of these names. -/
structure Registry.Spares (cell : Cell σ α) (names : List String) (r : Registry σ) : Prop where
  provider : r.provider.Spares cell
  resources : ∀ e ∈ r.resources, e.2.Spares cell
  dataSources : ∀ e ∈ r.dataSources, e.2.Spares cell
  listResources : ∀ e ∈ r.listResources, e.2.Spares cell
  stateStores : ∀ e ∈ r.stateStores, StateStore.Spares cell { e.2 with configure := .pass }
  configure : ∀ e ∈ r.stateStores, e.1 ∉ names → e.2.configure.Spares cell

theorem Registry.mem_of_lookUp {kind name : String} {t : List (String × β)} {b : β} (h : lookUp kind name t = .ok b) :
    (name, b) ∈ t := Table.mem_of_find? (find?_of_lookUp h)

/-! ## Requests -/

/-- Does the request configure a store of one of these names? -/
def TypedRequest.Configures (names : List String) : TypedRequest τ → Prop
  | .configureStateStore req => req.typeName ∈ names
  | _                        => False

/-- A request that names no type. -/
inductive ProviderRequest
  | getMetadata
  | getProviderSchema
  | getIdentitySchemas
  | validateConfig (config : Option Payload)
  | configure (req : Wire.ConfigureRequest)
  | stop

def ProviderRequest.Response : ProviderRequest → Type
  | .getMetadata                    => Wire.Metadata
  | .getProviderSchema              => Wire.ProviderSchema
  | .getIdentitySchemas             => Wire.IdentitySchemas
  | .validateConfig _ | .configure _ => Wire.Report
  | .stop                           => String

def Server.serveProvider (server : Server σ) : (req : ProviderRequest) → StateM σ req.Response
  | .getMetadata           => server.getMetadata
  | .getProviderSchema     => server.getProviderSchema
  | .getIdentitySchemas    => server.getIdentitySchemas
  | .validateConfig config => server.validateProviderConfig config
  | .configure req         => server.configureProvider req
  | .stop                  => server.stopProvider

/-! ## Steps -/

namespace Operation

theorem spares_identitySchemaOf {h : Handler σ Unit IdentitySchemaResponse} (hspares : h.Spares cell) :
    Spares cell (identitySchemaOf h) := by
  intro s
  rw [exec_identitySchemaOf]
  exact hspares () {} s

end Operation

namespace Server

open Operation

/-- The run leaves the cell as it is. -/
def Keeps (cell : Cell σ α) (x : StateM σ β) : Prop := ∀ s, cell.get (x.run s).2 = cell.get s

theorem Keeps.bind {x : StateM σ β} {f : β → StateM σ γ} (h : Keeps cell x) (hf : ∀ b, Keeps cell (f b)) :
    Keeps cell (x >>= f) :=
  fun s => (hf _ _).trans (h s)

theorem keeps_pure (b : β) : Keeps cell (pure b : StateM σ β) := fun _ => rfl

/-- An operation on an implementation of this table leaves the cell alone if each of them does. -/
theorem keeps_of_found {kind name : String} {t : List (String × β)} {P : β → Prop} (ht : ∀ e ∈ t, P e.2)
    {halted : List WireDiagnostic → ρ} {f : β → Operation σ ρ} (hf : ∀ b, P b → Spares cell (f b)) :
    Keeps cell (answer halted (found (Registry.lookUp kind name t) >>= f)) :=
  Spares.answer (spares_found_bind fun b hb => hf b (ht _ (Registry.mem_of_lookUp hb))) halted

theorem keeps_collect (empty : ρ) (report : ρ → Option ω × List Diagnostic) :
    ∀ {handlers : List (String × Handler σ Unit ρ)}, (∀ e ∈ handlers, e.2.Spares cell) →
      Keeps cell (collect empty report handlers)
  | [], _               => keeps_pure _
  | (_, h) :: handlers, hspares => by
    obtain ⟨hfirst, hrest⟩ := List.forall_mem_cons.1 hspares
    have hasked : Keeps cell (h () empty) := hfirst () empty
    exact hasked.bind fun _ => (keeps_collect empty report hrest).bind fun _ => keeps_pure _

/-- So it is for handlers that are asked for each implementation of a table. -/
theorem keeps_collect_map (empty : ρ) (report : ρ → Option ω × List Diagnostic) {t : List (String × β)}
    {handler : β → Handler σ Unit ρ} (h : ∀ e ∈ t, (handler e.2).Spares cell) :
    Keeps cell (collect empty report (t.map fun e => (e.1, handler e.2))) := by
  refine keeps_collect empty report fun e he => ?_
  obtain ⟨e, hmem, rfl⟩ := List.mem_map.1 he
  exact h e hmem

/-! ## Requests that name a type -/

section

variable {server : Server σ} {names : List String} (h : server.registry.Spares cell names)
include h

theorem validateResourceConfig_keeps (req : Wire.ConfigRequest) : Keeps cell (server.validateResourceConfig req) :=
  keeps_of_found h.resources fun _ hr => spares_bind (spares_configFor hr.schema _) fun _ =>
    spares_bind (spares_call hr.validateConfig _ _) fun _ => spares_pure _

theorem upgradeResourceState_keeps (req : Wire.UpgradeRequest) : Keeps cell (server.upgradeResourceState req) := by
  refine keeps_of_found h.resources fun _ hr => spares_bind (spares_schemaOf hr.schema) fun schema => ?_
  refine spares_bind (spares_orHalt _ _) fun nullState => ?_
  split
  · exact spares_bind (spares_orHalt _ _) fun _ => spares_bind (spares_orHalt _ _) fun _ => spares_pure _
  · exact spares_bind (spares_call hr.upgradeState _ _) fun _ => spares_bind (spares_check _) fun _ =>
      spares_bind (spares_orHalt _ _) fun _ => spares_pure _

omit h in
theorem spares_encodeState (schema : Option Schema) (identitySchema : Option IdentitySchema) (resp : StateResponse) :
    Spares cell (encodeState schema identitySchema resp : Operation σ Wire.StateResponse) :=
  spares_bind (spares_check _) fun _ => spares_bind (spares_orHalt _ _) fun _ => spares_bind (spares_orHalt _ _)
    fun _ => spares_pure _

theorem readResource_keeps (req : Wire.ReadRequest) : Keeps cell (server.readResource req) := by
  refine keeps_of_found h.resources fun _ hr => spares_bind (spares_schemaOf hr.schema) fun schema => ?_
  refine spares_bind (spares_identitySchemaOf hr.identitySchema) fun identitySchema => ?_
  refine spares_bind (spares_orHalt _ _) fun state => spares_bind (spares_orHalt _ _) fun identity => ?_
  exact spares_bind (spares_call hr.read _ _) fun resp => spares_encodeState _ _ resp

omit h in
theorem spares_seedPlan (schema : Option Schema) (config prior proposed : Value) :
    Spares cell (seedPlan schema config prior proposed : Operation σ Value) := by
  unfold seedPlan
  split
  · split
    · exact spares_orHalt _ _
    · exact spares_pure _
  · exact spares_pure _

theorem planResourceChange_keeps (req : Wire.PlanRequest) : Keeps cell (server.planResourceChange req) := by
  refine keeps_of_found h.resources fun _ hr => spares_bind (spares_schemaOf hr.schema) fun schema => ?_
  refine spares_bind (spares_identitySchemaOf hr.identitySchema) fun identitySchema => ?_
  refine spares_bind (spares_orHalt _ _) fun prior => spares_bind (spares_orHalt _ _) fun proposed => ?_
  refine spares_bind (spares_orHalt _ _) fun config => spares_bind (spares_orHalt _ _) fun identity => ?_
  refine spares_bind (spares_seedPlan _ _ _ _) fun seed => spares_bind (spares_call hr.planChange _ _) fun resp => ?_
  exact spares_bind (spares_check _) fun _ => spares_bind (spares_orHalt _ _) fun _ =>
    spares_bind (spares_orHalt _ _) fun _ => spares_pure _

theorem applyResourceChange_keeps (req : Wire.ApplyRequest) : Keeps cell (server.applyResourceChange req) := by
  refine keeps_of_found h.resources fun _ hr => spares_bind (spares_schemaOf hr.schema) fun schema => ?_
  refine spares_bind (spares_identitySchemaOf hr.identitySchema) fun identitySchema => ?_
  refine spares_bind (spares_orHalt _ _) fun prior => spares_bind (spares_orHalt _ _) fun planned => ?_
  refine spares_bind (spares_orHalt _ _) fun config => spares_bind (spares_orHalt _ _) fun identity => ?_
  split
  · exact spares_bind (spares_call hr.create _ _) fun resp => spares_encodeState _ _ resp
  · split
    · exact spares_bind (spares_call hr.delete _ _) fun _ => spares_bind (spares_check _) fun _ => spares_pure _
    · exact spares_bind (spares_call hr.update _ _) fun resp => spares_encodeState _ _ resp

theorem importResourceState_keeps (req : Wire.ImportRequest) : Keeps cell (server.importResourceState req) := by
  refine keeps_of_found h.resources fun _ hr => spares_bind (spares_schemaOf hr.schema) fun schema => ?_
  refine spares_bind (spares_identitySchemaOf hr.identitySchema) fun identitySchema => ?_
  refine spares_bind (spares_orHalt _ _) fun identity => spares_bind (spares_orHalt _ _) fun state => ?_
  refine spares_bind (spares_call hr.importState _ _) fun resp => spares_bind (spares_check _) fun _ => ?_
  split
  · exact spares_pure _
  · exact spares_bind (spares_orHalt _ _) fun _ => spares_bind (spares_orHalt _ _) fun _ => spares_pure _

theorem validateDataConfig_keeps (req : Wire.ConfigRequest) : Keeps cell (server.validateDataConfig req) :=
  keeps_of_found h.dataSources fun _ hd => spares_bind (spares_configFor hd.schema _) fun _ =>
    spares_bind (spares_call hd.validateConfig _ _) fun _ => spares_pure _

theorem readDataSource_keeps (req : Wire.ConfigRequest) : Keeps cell (server.readDataSource req) := by
  refine keeps_of_found h.dataSources fun _ hd => spares_bind (spares_schemaOf hd.schema) fun schema => ?_
  refine spares_bind (spares_orHalt _ _) fun config => spares_bind (spares_call hd.read _ _) fun resp => ?_
  exact spares_bind (spares_check _) fun _ => spares_bind (spares_orHalt _ _) fun _ => spares_pure _

/-! ### Listings -/

theorem validateListConfig_keeps (req : Wire.ListRequest) : Keeps cell (server.validateListConfig req) :=
  keeps_of_found h.listResources fun _ hl => spares_bind (spares_configFor hl.schema _) fun _ =>
    spares_bind (spares_call hl.validateConfig _ _) fun _ => spares_pure _

omit h in
theorem runListing_pushes (ctx : ListContext) (emit : Sink τ) : ∀ (listing : Listing σ) (d : Delivery τ),
    ∃ pushed, listing.Pushes pushed (runListing ctx emit listing d).1
  | .finish s, _      => ⟨[], .finish s⟩
  | .push r resume, d => by
    obtain ⟨pushed, hpushes⟩ := runListing_pushes ctx emit (resume (deliver ctx emit d r).1) (deliver ctx emit d r).2
    exact ⟨(r, (deliver ctx emit d r).1) :: pushed, .push hpushes⟩

omit h in
theorem listInto_fst (ctx : ListContext) (emit : Sink τ) (sink : τ) (listing : Listing σ) :
    (listInto ctx emit sink listing).1 = (runListing ctx emit listing { sink }).1 := by
  unfold listInto
  dsimp only
  split
  · rfl
  · rfl

/-- Up to the listing only handlers for schemas are called. -/
theorem spares_startListing (req : Wire.ListRequest) : Spares cell (startListing server req) := by
  refine spares_found_bind fun l hl => spares_found_bind fun r hr => ?_
  have hlist := h.listResources _ (Registry.mem_of_lookUp hl)
  have hresource := h.resources _ (Registry.mem_of_lookUp hr)
  refine spares_bind (spares_schemaOf hlist.schema) fun listSchema => ?_
  refine spares_bind (spares_schemaOf hresource.schema) fun schema => ?_
  refine spares_bind (spares_identitySchemaOf hresource.identitySchema) fun identitySchema => ?_
  exact spares_bind (spares_orHalt _ _) fun config => spares_pure _

/-- The listing that is started is that of an implementation. -/
theorem returns_listing_spares (req : Wire.ListRequest) : Returns (startListing server req) fun started =>
    ∀ s pushed s', (started.1 s).Pushes pushed s' → cell.get s' = cell.get s := by
  refine (returns_found _).bind fun l hl => ?_
  have hlist := h.listResources _ (Registry.mem_of_lookUp hl)
  refine returns_bind fun r => returns_bind fun listSchema => returns_bind fun schema => ?_
  exact returns_bind fun identitySchema => returns_bind fun config => returns_pure (hlist.list _)

theorem listResource_keeps (emit : Sink τ) (req : Wire.ListRequest) (s : σ) (t : τ) :
    cell.get (server.listResource emit req s t).1 = cell.get s := by
  have hspares := spares_startListing h req s
  cases hstart : exec (startListing server req) s with
  | mk ending s' =>
    rw [hstart] at hspares
    cases ending with
    | error ds     =>
      rw [listResource_of_error hstart]
      exact hspares
    | ok started =>
      rw [listResource_of_ok hstart, listInto_fst]
      obtain ⟨pushed, hpushes⟩ := runListing_pushes started.2 emit (started.1 s') { sink := t }
      exact (returns_listing_spares h req s started s' hstart s' pushed _ hpushes).trans hspares

/-! ### Stores -/

theorem storeNamed_spares (name : String) :
    server.StoreNamed name fun store => StateStore.Spares cell { store with configure := .pass } :=
  fun _ hstore => h.stateStores _ (Registry.mem_of_lookUp hstore)

theorem configureStateStore_keeps {req : Wire.ConfigureStoreRequest} (hname : req.typeName ∉ names) :
    Keeps cell (server.configureStateStore req) :=
  configureStateStore_spares server fun store hstore =>
    ⟨(storeNamed_spares h _ store hstore).schema, h.configure _ (Registry.mem_of_lookUp hstore) hname⟩

/-! ## All requests -/

/-- **A request that configures none of these stores leaves the cell alone.** -/
theorem serve_keeps (req : TypedRequest τ) (hreq : ¬ req.Configures names) : Keeps cell (server.serve req) := by
  have hstore := storeNamed_spares h
  cases req with
  | validateResourceConfig req      => exact validateResourceConfig_keeps h req
  | upgradeResourceState req        => exact upgradeResourceState_keeps h req
  | readResource req                => exact readResource_keeps h req
  | planResourceChange req          => exact planResourceChange_keeps h req
  | applyResourceChange req         => exact applyResourceChange_keeps h req
  | importResourceState req         => exact importResourceState_keeps h req
  | validateDataConfig req          => exact validateDataConfig_keeps h req
  | readDataSource req              => exact readDataSource_keeps h req
  | validateListConfig req          => exact validateListConfig_keeps h req
  | listResource emit sink req      => exact fun s => listResource_keeps h emit req s sink
  | validateStoreConfig req         =>
    exact validateStoreConfig_spares server fun store hs =>
      ⟨(hstore _ store hs).schema, (hstore _ store hs).validateConfig⟩
  | configureStateStore req         => exact configureStateStore_keeps h hreq
  | getStates typeName              => exact getStates_spares server fun store hs => (hstore _ store hs).states
  | deleteState req                 => exact deleteState_spares server fun store hs => (hstore _ store hs).delete
  | lockState req                   => exact lockState_spares server fun store hs => (hstore _ store hs).lock
  | unlockState req                 => exact unlockState_spares server fun store hs => (hstore _ store hs).unlock
  | readStateBytes req              => exact readStateBytes_spares server fun store hs => (hstore _ store hs).readBytes
  | writeStateBytes chunks          =>
    exact writeStateBytes_spares server fun _ _ store hs => (hstore _ store hs).writeBytes

/-- So does every request that names no type. -/
theorem serveProvider_keeps (req : ProviderRequest) : Keeps cell (server.serveProvider req) := by
  have hasked : ∀ resp, Keeps cell (server.registry.provider.schema () resp) := h.provider.schema ()
  have hconfig : ∀ config, Spares cell (server.providerConfig config) := fun config =>
    spares_bind (spares_schemaOf h.provider.schema) fun _ => spares_orHalt _ _
  cases req with
  | getMetadata           => exact keeps_pure _
  | getProviderSchema     =>
    refine (hasked _).bind fun own => ?_
    refine (keeps_collect_map _ _ fun e he => (h.resources e he).schema).bind fun _ => ?_
    refine (keeps_collect_map _ _ fun e he => (h.dataSources e he).schema).bind fun _ => ?_
    refine (keeps_collect_map _ _ fun e he => (h.listResources e he).schema).bind fun _ => ?_
    exact (keeps_collect_map _ _ fun e he => (h.stateStores e he).schema).bind fun _ => keeps_pure _
  | getIdentitySchemas    =>
    exact (keeps_collect_map _ _ fun e he => (h.resources e he).identitySchema).bind fun _ => keeps_pure _
  | validateConfig config =>
    exact Spares.answer (spares_bind (hconfig _) fun _ => spares_bind (spares_call h.provider.validateConfig _ _)
      fun _ => spares_pure _) _
  | configure req         =>
    exact Spares.answer (spares_bind (hconfig _) fun _ => spares_bind (spares_call h.provider.configure _ _)
      fun _ => spares_pure _) _
  | stop                  =>
    have hstop : Keeps cell (server.registry.provider.stop () none) := h.provider.stop () none
    exact hstop.bind fun _ => keeps_pure _

end

end Server

end ProviderProtocol
