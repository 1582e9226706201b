import ProviderProtocol.Proofs.Schema.Advertised
import ProviderProtocol.Proofs.Server.Outcome
import ProviderProtocol.Proofs.Server.Stream
import ProviderProtocol.Server.Provider
/-!
# The advertised schema is the schema in force

Whoever sends a request encodes it with the schema that was advertised; the server decodes it with the schema that the
implementation reports by then.  If implementations report the same on every call, and only types that can be read again
from their descriptors, the two have one version and one value type (`advertised_in_force`).  What is in force is what
an operation goes on with after it has asked for the schema (`consultRead_inForce` and its like).

Collecting asks each implementation once, whatever the answers are (`Notes`).  Answers that are the same in every state
make the whole collection the same in every state (`Gives`), so it is known without following the state along.
-/
namespace ProviderProtocol

/-- Reports the same on every call, and a schema that the wire can carry. -/
structure Advertisable (h : Handler σ Unit SchemaResponse) : Prop where
  steady : ∀ s t, (h () {} s).1 = (h () {} t).1
  carried : ∀ s schema, (h () {} s).1.schema = some schema → schema.WellFormed ∧ schema.Readable

structure IdentityAdvertisable (h : Handler σ Unit IdentitySchemaResponse) : Prop where
  steady : ∀ s t, (h () {} s).1 = (h () {} t).1
  carried : ∀ s schema, (h () {} s).1.schema = some schema → schema.WellFormed ∧ schema.Readable

namespace Registry

/-- Each kind is in ascending order of the names. -/
structure Ordered (r : Registry σ) : Prop where
  resources : Table.Ascending r.resources
  dataSources : Table.Ascending r.dataSources
  listResources : Table.Ascending r.listResources
  stateStores : Table.Ascending r.stateStores

structure SchemasAdvertisable (r : Registry σ) : Prop where
  provider : Advertisable r.provider.schema
  resources : ∀ e ∈ r.resources, Advertisable e.2.schema
  dataSources : ∀ e ∈ r.dataSources, Advertisable e.2.schema
  listResources : ∀ e ∈ r.listResources, Advertisable e.2.schema
  stateStores : ∀ e ∈ r.stateStores, Advertisable e.2.schema

/-- The schema sub-calls of everything registered, each once. -/
def schemaCalls (r : Registry σ) : List Call :=
  Call.provider .schema :: r.resources.map (fun e => Call.resource e.1 .schema) ++
    r.dataSources.map (fun e => Call.dataSource e.1 .schema) ++
    r.listResources.map (fun e => Call.listResource e.1 .schema) ++
    r.stateStores.map fun e => Call.stateStore e.1 .schema

def identitySchemaCalls (r : Registry σ) : List Call := r.resources.map fun e => .resource e.1 .identitySchema

/-- All that the schema sub-calls report beside schemas. -/
def schemaDiagnostics (r : Registry σ) (s : σ) : List Diagnostic :=
  (r.provider.schema () {} s).1.diagnostics ++
    r.resources.flatMap (fun e => (e.2.schema () {} s).1.diagnostics) ++
    r.dataSources.flatMap (fun e => (e.2.schema () {} s).1.diagnostics) ++
    r.listResources.flatMap (fun e => (e.2.schema () {} s).1.diagnostics) ++
    r.stateStores.flatMap fun e => (e.2.schema () {} s).1.diagnostics

def identityDiagnostics (r : Registry σ) (s : σ) : List Diagnostic :=
  r.resources.flatMap fun e => (e.2.identitySchema () {} s).1.diagnostics

/-! ## Registering keeps the order -/

variable {r : Registry σ}

theorem ordered_of_provider (p : Provider σ) : ({ provider := p } : Registry σ).Ordered :=
  ⟨List.Pairwise.nil, List.Pairwise.nil, List.Pairwise.nil, List.Pairwise.nil⟩

theorem Ordered.addResource (h : r.Ordered) (name : String) (x : Resource σ) : (r.addResource name x).Ordered :=
  { h with resources := Table.insert_ascending h.resources }

theorem Ordered.addDataSource (h : r.Ordered) (name : String) (x : DataSource σ) : (r.addDataSource name x).Ordered :=
  { h with dataSources := Table.insert_ascending h.dataSources }

theorem Ordered.addListResource (h : r.Ordered) (name : String) (x : ListResource σ) :
    (r.addListResource name x).Ordered :=
  { h with listResources := Table.insert_ascending h.listResources }

theorem Ordered.addStateStore (h : r.Ordered) (name : String) (x : StateStore σ) : (r.addStateStore name x).Ordered :=
  { h with stateStores := Table.insert_ascending h.stateStores }

end Registry

namespace Server

open Operation

/-- Requests can come to be decoded with this schema. -/
def InForce (h : Handler σ Unit SchemaResponse) (schema : Option Schema) : Prop :=
  ∃ s s', exec (schemaOf h) s = (.ok schema, s')

def IdentityInForce (h : Handler σ Unit IdentitySchemaResponse) (schema : Option IdentitySchema) : Prop :=
  ∃ s s', exec (identitySchemaOf h) s = (.ok schema, s')

/-- The names of the table for which a schema is reported, each with a message that restores this schema, and the one
in force.  A schema that is reported beside a diagnostic is advertised all the same, though it never is in force. -/
structure Advertised (reported : α → Option S) (inForce : α → S → Prop) (restores : ω → S → Prop)
    (t : List (String × α)) (messages : List (String × ω)) : Prop where
  names : Table.names messages = Table.names (t.filter fun e => (reported e.2).isSome)
  sent : ∀ name a schema, Table.find? name t = some a → reported a = some schema →
    ∃ w, Table.find? name messages = some w ∧ restores w schema
  restored : ∀ name a schema, Table.find? name t = some a → inForce a schema →
    ∃ w, Table.find? name messages = some w ∧ restores w schema

/-- Of implementations that are asked for their schemas so, here in state `s`. -/
def SchemasAdvertised (ask : α → Handler σ Unit SchemaResponse) (t : List (String × α)) (s : σ) :
    List (String × WireSchema) → Prop :=
  Advertised (fun a => (ask a () {} s).1.schema) (fun a schema => InForce (ask a) (some schema)) WireSchema.Restores t

def IdentitiesAdvertised (t : List (String × Resource σ)) (s : σ) : List (String × WireIdentitySchema) → Prop :=
  Advertised (fun r => (r.identitySchema () {} s).1.schema)
    (fun r schema => IdentityInForce r.identitySchema (some schema)) WireIdentitySchema.Restores t

/-- What collecting the schemas calls and answers in state `s`. -/
structure SchemasInForce (server : Server σ) (s : σ) : Prop where
  calls : server.observed.getProviderSchema.run (s, []) =
    ((server.getProviderSchema.run s).1, (server.getProviderSchema.run s).2, server.registry.schemaCalls)
  provider : ∃ w, (server.getProviderSchema.run s).1.provider = some w ∧
    w.Restores ((server.registry.provider.schema () {} s).1.schema.getD (.new 0)) ∧
    ∀ schema, InForce server.registry.provider.schema schema → w.Restores (schema.getD (.new 0))
  resources : SchemasAdvertised Resource.schema server.registry.resources s (server.getProviderSchema.run s).1.resources
  dataSources : SchemasAdvertised DataSource.schema server.registry.dataSources s
    (server.getProviderSchema.run s).1.dataSources
  listResources : SchemasAdvertised ListResource.schema server.registry.listResources s
    (server.getProviderSchema.run s).1.listResources
  stateStores : SchemasAdvertised StateStore.schema server.registry.stateStores s
    (server.getProviderSchema.run s).1.stateStores
  diagnostics : (server.getProviderSchema.run s).1.diagnostics =
    (server.registry.schemaDiagnostics s).map Diagnostic.toWire

/-- The same for identities, which only resources have. -/
structure IdentitySchemasInForce (server : Server σ) (s : σ) : Prop where
  calls : server.observed.getIdentitySchemas.run (s, []) =
    ((server.getIdentitySchemas.run s).1, (server.getIdentitySchemas.run s).2, server.registry.identitySchemaCalls)
  resources : IdentitiesAdvertised server.registry.resources s (server.getIdentitySchemas.run s).1.schemas
  diagnostics : (server.getIdentitySchemas.run s).1.diagnostics =
    (server.registry.identityDiagnostics s).map Diagnostic.toWire

/-! ## Calls -/

/-- `observed` does what `op` does and notes these calls, in every state the same. -/
def Notes (op : StateM σ α) (observed : StateM (σ × List Call) α) (calls : List Call) : Prop :=
  ∀ s log, observed.run (s, log) = ((op.run s).1, (op.run s).2, log ++ calls)

section

variable {op : StateM σ α} {op' : StateM (σ × List Call) α} {f : α → StateM σ β} {f' : α → StateM (σ × List Call) β}
  {calls more : List Call}

theorem Notes.bind (h : Notes op op' calls) (hf : ∀ a, Notes (f a) (f' a) more) :
    Notes (op >>= f) (op' >>= f') (calls ++ more) := by
  intro s log
  rw [StateT.run_bind, StateT.run_bind, h s log]
  show (f' (op.run s).1).run ((op.run s).2, log ++ calls) = _
  rw [hf, List.append_assoc]
  rfl

/-- A second step that calls nothing. -/
theorem Notes.bind_silent (h : Notes op op' calls) (hf : ∀ a, Notes (f a) (f' a) []) :
    Notes (op >>= f) (op' >>= f') calls := by
  have hall := h.bind hf
  rw [List.append_nil] at hall
  exact hall

theorem notes_pure (a : α) : Notes (pure a : StateM σ α) (pure a) [] := by
  intro s log
  rw [List.append_nil]
  rfl

theorem notes_handler (note : Call) (h : Handler σ Unit ρ) (empty : ρ) :
    Notes (h () empty) (h.observed (fun _ _ => note) () empty) [note] :=
  fun _ _ => rfl

end

/-- Collecting from observed implementations; `observe` says how one is observed. -/
theorem notes_collect {empty : ρ} {report : ρ → Option ω × List Diagnostic} (ask : α → Handler σ Unit ρ)
    (ask' : α' → Handler (σ × List Call) Unit ρ) (observe : String → α → α') (note : String → Call)
    (h : ∀ name a, ask' (observe name a) = (ask a).observed fun _ _ => note name) : ∀ t : List (String × α),
    Notes (collect empty report (t.map fun e => (e.1, ask e.2)))
      (collect empty report ((t.map fun e => (e.1, observe e.1 e.2)).map fun e => (e.1, ask' e.2)))
      (t.map fun e => note e.1)
  | []        => notes_pure _
  | e :: rest => by
    have hfirst : Notes (ask e.2 () empty) (ask' (observe e.1 e.2) () empty) [note e.1] :=
      h e.1 e.2 ▸ notes_handler (note e.1) (ask e.2) empty
    exact hfirst.bind fun _ => (notes_collect ask ask' observe note h rest).bind_silent fun _ => notes_pure _

theorem notes_getProviderSchema (server : Server σ) :
    Notes server.getProviderSchema server.observed.getProviderSchema server.registry.schemaCalls := by
  -- the calls in the order of the steps, so that each step has its own
  rw [Registry.schemaCalls, List.cons_append, List.cons_append, List.cons_append, List.append_assoc, List.append_assoc,
    ← List.singleton_append]
  refine (notes_handler (.provider .schema) server.registry.provider.schema {}).bind fun _ => ?_
  refine (notes_collect Resource.schema Resource.schema Resource.observed (.resource · .schema) (fun _ _ => rfl)
    server.registry.resources).bind fun _ => ?_
  refine (notes_collect DataSource.schema DataSource.schema DataSource.observed (.dataSource · .schema)
    (fun _ _ => rfl) server.registry.dataSources).bind fun _ => ?_
  refine (notes_collect ListResource.schema ListResource.schema ListResource.observed (.listResource · .schema)
    (fun _ _ => rfl) server.registry.listResources).bind fun _ => ?_
  exact (notes_collect StateStore.schema StateStore.schema StateStore.observed (.stateStore · .schema)
    (fun _ _ => rfl) server.registry.stateStores).bind_silent fun _ => notes_pure _

theorem notes_getIdentitySchemas (server : Server σ) :
    Notes server.getIdentitySchemas server.observed.getIdentitySchemas server.registry.identitySchemaCalls :=
  (notes_collect Resource.identitySchema Resource.identitySchema Resource.observed (.resource · .identitySchema)
    (fun _ _ => rfl) server.registry.resources).bind_silent fun _ => notes_pure _

/-! ## Answers -/

/-- What the step gives in every state. -/
def Gives (op : StateM σ α) (a : α) : Prop := ∀ s, (op.run s).1 = a

theorem Gives.bind {op : StateM σ α} {f : α → StateM σ β} {a : α} {b : β} (h : Gives op a) (hf : Gives (f a) b) :
    Gives (op >>= f) b := by
  intro s
  rw [StateT.run_bind]
  show ((f (op.run s).1).run (op.run s).2).1 = b
  rw [h s]
  exact hf _

theorem gives_pure (a : α) : Gives (pure a : StateM σ α) a := fun _ => rfl

theorem gives_collect {empty : ρ} {report : ρ → Option ω × List Diagnostic} {ask : α → Handler σ Unit ρ} (s : σ) :
    ∀ {t : List (String × α)}, (∀ e ∈ t, ∀ u, (ask e.2 () empty u).1 = (ask e.2 () empty s).1) →
    Gives (collect empty report (t.map fun e => (e.1, ask e.2)))
      (Table.choose (fun a => (report (ask a () empty s).1).1) t,
        t.flatMap fun e => (report (ask e.2 () empty s).1).2)
  | [], _        => gives_pure _
  | e :: rest, h => by
    obtain ⟨hfirst, hrest⟩ := List.forall_mem_cons.1 h
    -- the answer is that of state `s`, although the state has moved on by then
    have hanswer : Gives (ask e.2 () empty) (ask e.2 () empty s).1 := hfirst
    refine hanswer.bind ((gives_collect s hrest).bind ?_)
    rw [Table.choose_cons, List.flatMap_cons]
    cases (report (ask e.2 () empty s).1).1 with
    | none   => exact gives_pure _
    | some w => exact gives_pure _

/-- The schema in force is the one that is reported in any state. -/
theorem reported_of_inForce {h : Handler σ Unit SchemaResponse} (ha : Advertisable h) {schema : Option Schema}
    (hin : InForce h schema) (s : σ) : (h () {} s).1.schema = schema := by
  obtain ⟨u, u', hexec⟩ := hin
  rw [ha.steady s u, exec_schemaOf_eq_ok.1 hexec]

theorem reported_of_identityInForce {h : Handler σ Unit IdentitySchemaResponse} (ha : IdentityAdvertisable h)
    {schema : Option IdentitySchema} (hin : IdentityInForce h schema) (s : σ) : (h () {} s).1.schema = schema := by
  obtain ⟨u, u', hexec⟩ := hin
  rw [ha.steady s u, exec_identitySchemaOf_eq_ok.1 hexec]

theorem advertised_choose {reported : α → Option S} {inForce : α → S → Prop} {restores : ω → S → Prop}
    {toWire : S → ω} {t : List (String × α)} (ht : Table.Ascending t)
    (hrestores : ∀ e ∈ t, ∀ schema, reported e.2 = some schema → restores (toWire schema) schema)
    (hreported : ∀ e ∈ t, ∀ schema, inForce e.2 schema → reported e.2 = some schema) :
    Advertised reported inForce restores t (Table.choose (fun a => (reported a).map toWire) t) := by
  have hsent : ∀ name a schema, Table.find? name t = some a → reported a = some schema →
      ∃ w, Table.find? name (Table.choose (fun a => (reported a).map toWire) t) = some w ∧ restores w schema := by
    intro name a schema hfind ha
    refine ⟨toWire schema, ?_, hrestores (name, a) (Table.mem_of_find? hfind) schema ha⟩
    rw [Table.find?_choose _ _ (Table.names_nodup ht), hfind]
    exact congrArg (Option.map toWire) ha
  refine ⟨?_, hsent, fun name a schema hfind hin => ?_⟩
  · rw [Table.names_choose]
    simp only [Option.isSome_map]
  · exact hsent name a schema hfind (hreported (name, a) (Table.mem_of_find? hfind) schema hin)

/-- The messages of the types that report a schema in this state. -/
def messages (ask : α → Handler σ Unit SchemaResponse) (t : List (String × α)) (s : σ) : List (String × WireSchema) :=
  Table.choose (fun a => (ask a () {} s).1.schema.map Schema.toWire) t

def identityMessages (t : List (String × Resource σ)) (s : σ) : List (String × WireIdentitySchema) :=
  Table.choose (fun r => (r.identitySchema () {} s).1.schema.map IdentitySchema.toWire) t

theorem schemasAdvertised_messages {ask : α → Handler σ Unit SchemaResponse} {t : List (String × α)}
    (ht : Table.Ascending t) (h : ∀ e ∈ t, Advertisable (ask e.2)) (s : σ) :
    SchemasAdvertised ask t s (messages ask t s) := by
  refine advertised_choose ht (fun e he schema hreported => ?_) fun e he schema hin =>
    reported_of_inForce (h e he) hin s
  obtain ⟨hs, hread⟩ := (h e he).carried s schema hreported
  exact Schema.restores_toWire hs hread

theorem identitiesAdvertised_messages {t : List (String × Resource σ)} (ht : Table.Ascending t)
    (h : ∀ e ∈ t, IdentityAdvertisable e.2.identitySchema) (s : σ) :
    IdentitiesAdvertised t s (identityMessages t s) := by
  refine advertised_choose ht (fun e he schema hreported => ?_) fun e he schema hin =>
    reported_of_identityInForce (h e he) hin s
  obtain ⟨hs, hread⟩ := (h e he).carried s schema hreported
  exact IdentitySchema.restores_toWire hs hread

/-! ## The whole answers -/

def advertisement (server : Server σ) (s : σ) : Wire.ProviderSchema where
  capabilities := some server.capabilities
  provider := some ((server.registry.provider.schema () {} s).1.schema.getD (.new 0)).toWire
  resources := messages Resource.schema server.registry.resources s
  dataSources := messages DataSource.schema server.registry.dataSources s
  listResources := messages ListResource.schema server.registry.listResources s
  stateStores := messages StateStore.schema server.registry.stateStores s
  diagnostics := (server.registry.schemaDiagnostics s).map Diagnostic.toWire

theorem gives_collectSchemas {ask : α → Handler σ Unit SchemaResponse} {t : List (String × α)}
    (h : ∀ e ∈ t, Advertisable (ask e.2)) (s : σ) :
    Gives (collectSchemas (t.map fun e => (e.1, ask e.2)))
      (messages ask t s, t.flatMap fun e => (ask e.2 () {} s).1.diagnostics) :=
  gives_collect s fun e he u => (h e he).steady u s

theorem gives_getProviderSchema (server : Server σ) (h : server.registry.SchemasAdvertisable) (s : σ) :
    Gives server.getProviderSchema (server.advertisement s) := by
  have hprovider : Gives (server.registry.provider.schema () {}) (server.registry.provider.schema () {} s).1 :=
    fun u => h.provider.steady u s
  refine hprovider.bind ((gives_collectSchemas h.resources s).bind ?_)
  refine (gives_collectSchemas h.dataSources s).bind ((gives_collectSchemas h.listResources s).bind ?_)
  exact (gives_collectSchemas h.stateStores s).bind (gives_pure _)

theorem gives_getIdentitySchemas (server : Server σ)
    (h : ∀ e ∈ server.registry.resources, IdentityAdvertisable e.2.identitySchema) (s : σ) :
    Gives server.getIdentitySchemas ⟨identityMessages server.registry.resources s,
      (server.registry.identityDiagnostics s).map Diagnostic.toWire⟩ := by
  have hcollect : Gives (collectIdentitySchemas (server.registry.resources.map fun e => (e.1, e.2.identitySchema)))
      (identityMessages server.registry.resources s, server.registry.identityDiagnostics s) :=
    gives_collect s fun e he u => (h e he).steady u s
  exact hcollect.bind (gives_pure _)

/-- **The advertised schema is the schema in force**, for the provider, for every registered type of each kind and for
the identities of resources. -/
theorem advertised_in_force (server : Server σ) (hordered : server.registry.Ordered) (s : σ) :
    (server.registry.SchemasAdvertisable → server.SchemasInForce s) ∧
    ((∀ e ∈ server.registry.resources, IdentityAdvertisable e.2.identitySchema) → server.IdentitySchemasInForce s) := by
  constructor
  · intro h
    have hanswer : (server.getProviderSchema.run s).1 = server.advertisement s := gives_getProviderSchema server h s s
    refine ⟨notes_getProviderSchema server s [], ?_, ?_, ?_, ?_, ?_, ?_⟩
    · have hrestores : ∀ schema, (server.registry.provider.schema () {} s).1.schema = schema →
          (schema.getD (.new 0)).toWire.Restores (schema.getD (.new 0)) := by
        intro schema hreported
        cases schema with
        | none        => exact Schema.restores_toWire (by decide) (by decide)
        | some schema =>
          obtain ⟨hs, hread⟩ := h.provider.carried s schema hreported
          exact Schema.restores_toWire hs hread
      refine ⟨_, congrArg Wire.ProviderSchema.provider hanswer, hrestores _ rfl, fun schema hin => ?_⟩
      have hreported := reported_of_inForce h.provider hin s
      show WireSchema.Restores ((server.registry.provider.schema () {} s).1.schema.getD (.new 0)).toWire _
      rw [hreported]
      exact hrestores schema hreported
    · exact hanswer ▸ schemasAdvertised_messages hordered.resources h.resources s
    · exact hanswer ▸ schemasAdvertised_messages hordered.dataSources h.dataSources s
    · exact hanswer ▸ schemasAdvertised_messages hordered.listResources h.listResources s
    · exact hanswer ▸ schemasAdvertised_messages hordered.stateStores h.stateStores s
    · exact congrArg Wire.ProviderSchema.diagnostics hanswer
  · intro h
    have hanswer := gives_getIdentitySchemas server h s s
    refine ⟨notes_getIdentitySchemas server s [], ?_, congrArg Wire.IdentitySchemas.diagnostics hanswer⟩
    exact hanswer ▸ identitiesAdvertised_messages hordered.resources h s

/-! ## What requests are decoded with

An operation asks for the schemas first.  All that it decodes after that, and the state that it encodes in the end, is
with the schemas it was told; these are in force. -/

theorem returns_schemaOf (h : Handler σ Unit SchemaResponse) : Returns (schemaOf h) (InForce h) :=
  fun s _ s' hexec => ⟨s, s', hexec⟩

theorem returns_identitySchemaOf (h : Handler σ Unit IdentitySchemaResponse) :
    Returns (identitySchemaOf h) (IdentityInForce h) :=
  fun s _ s' hexec => ⟨s, s', hexec⟩

theorem returns_decode (schema : Option Schema) (p : Option Payload) (what : String) :
    Returns (decode schema p what : Operation σ Value) fun v => Payload.decodeFor schema p = .ok v :=
  fun _ _ _ h => (exec_orHalt_eq_ok.1 h).1

theorem returns_decodeIdentity (schema : Option IdentitySchema) (p : Option IdentityPayload) (what : String) :
    Returns (decodeIdentity schema p what : Operation σ (Option Value)) fun v =>
      IdentityPayload.decodeFor schema p = .ok v :=
  fun _ _ _ h => (exec_orHalt_eq_ok.1 h).1

/-- A configuration that is validated, or that a store is configured with. -/
theorem configFor_inForce (h : Handler σ Unit SchemaResponse) (config : Option Payload) :
    Returns (configFor h config) fun v => ∃ schema, InForce h schema ∧ Payload.decodeFor schema config = .ok v :=
  (returns_schemaOf h).bind fun schema hin _ v _ hv => ⟨schema, hin, returns_decode schema config _ _ v _ hv⟩

/-- The outcome is one for a resource of this name; the payloads were decoded with the schemas it has. -/
structure OutcomeInForce (server : Server σ) (name : String) (payloads : List (Option Payload))
    (identity : Option IdentityPayload) (o : Outcome) : Prop where
  inForce : ∃ r, server.registry.resource name = .ok r ∧ InForce r.schema o.schema ∧
    IdentityInForce r.identitySchema o.identitySchema
  decoded : ∀ p ∈ payloads, ∃ v, Payload.decodeFor o.schema p = .ok v
  identity : ∃ v, IdentityPayload.decodeFor o.identitySchema identity = .ok v

section

variable (server : Server σ)

/-- A configuration of the provider itself. -/
theorem providerConfig_inForce (config : Option Payload) : Returns (server.providerConfig config) fun v =>
    ∃ schema, InForce server.registry.provider.schema schema ∧
      Payload.decodeFor (some (schema.getD (.new 0))) config = .ok v :=
  (returns_schemaOf _).bind fun schema hin _ v _ hv => ⟨schema, hin, returns_decode _ config _ _ v _ hv⟩

theorem consultUpgrade_inForce (req : Wire.UpgradeRequest) : Returns (server.consultUpgrade req) fun o =>
    ∃ r, server.registry.resource req.typeName = .ok r ∧ InForce r.schema o.schema := by
  refine (returns_found _).bind fun r hr => (returns_schemaOf _).bind fun schema hschema => ?_
  exact returns_bind fun nullState => returns_bind fun resp => returns_pure ⟨r, hr, hschema⟩

theorem consultRead_inForce (req : Wire.ReadRequest) : Returns (server.consultRead req)
    (server.OutcomeInForce req.typeName [req.currentState] req.currentIdentity) := by
  refine (returns_found _).bind fun r hr => (returns_schemaOf _).bind fun schema hschema => ?_
  refine (returns_identitySchemaOf _).bind fun identitySchema hidentitySchema => ?_
  refine (returns_decode _ _ _).bind fun current hcurrent => ?_
  refine (returns_decodeIdentity _ _ _).bind fun identity hidentity => returns_bind fun resp => ?_
  refine returns_pure ⟨⟨r, hr, hschema, hidentitySchema⟩, ?_, identity, hidentity⟩
  exact List.forall_mem_singleton.2 ⟨current, hcurrent⟩

theorem consultPlan_inForce (req : Wire.PlanRequest) : Returns (server.consultPlan req)
    (server.OutcomeInForce req.typeName [req.priorState, req.proposedState, req.config] req.priorIdentity) := by
  refine (returns_found _).bind fun r hr => (returns_schemaOf _).bind fun schema hschema => ?_
  refine (returns_identitySchemaOf _).bind fun identitySchema hidentitySchema => ?_
  refine (returns_decode _ _ _).bind fun prior hprior => (returns_decode _ _ _).bind fun proposed hproposed => ?_
  refine (returns_decode _ _ _).bind fun config hconfig => ?_
  refine (returns_decodeIdentity _ _ _).bind fun identity hidentity => returns_bind fun seed => ?_
  refine returns_bind fun resp => returns_pure ⟨⟨r, hr, hschema, hidentitySchema⟩, ?_, identity, hidentity⟩
  exact List.forall_mem_cons.2 ⟨⟨prior, hprior⟩, List.forall_mem_cons.2 ⟨⟨proposed, hproposed⟩,
    List.forall_mem_singleton.2 ⟨config, hconfig⟩⟩⟩

theorem consultApply_inForce (req : Wire.ApplyRequest) : Returns (server.consultApply req) fun applied =>
    ∀ o, applied = .changed o →
      server.OutcomeInForce req.typeName [req.priorState, req.plannedState, req.config] req.plannedIdentity o := by
  refine (returns_found _).bind fun r hr => ?_
  have hread : Returns (readApply r req) fun x => ∀ resp, server.OutcomeInForce req.typeName
      [req.priorState, req.plannedState, req.config] req.plannedIdentity
      (.ofResponse x.schema x.identitySchema resp) := by
    intro s x s' hx resp
    obtain ⟨⟨s₁, hschema, hidentitySchema⟩, hprior, hplanned, hconfig, hidentity⟩ := readApply_eq_ok.1 hx
    have hin : InForce r.schema x.schema := ⟨s, s₁, exec_schemaOf_eq_ok.2 hschema⟩
    have hidentityIn : IdentityInForce r.identitySchema x.identitySchema :=
      ⟨s₁, s', exec_identitySchemaOf_eq_ok.2 hidentitySchema⟩
    refine ⟨⟨r, hr, hin, hidentityIn⟩, ?_, x.plannedIdentity, hidentity⟩
    exact List.forall_mem_cons.2 ⟨⟨x.prior, hprior⟩, List.forall_mem_cons.2 ⟨⟨x.planned, hplanned⟩,
      List.forall_mem_singleton.2 ⟨x.config, hconfig⟩⟩⟩
  refine hread.bind fun x hx => ?_
  -- a delete has no outcome
  split
  · refine returns_bind fun resp => returns_pure fun o ho => ?_
    cases ho
    exact hx resp
  · split
    · exact returns_bind fun ds => returns_pure fun o ho => nomatch ho
    · refine returns_bind fun resp => returns_pure fun o ho => ?_
      cases ho
      exact hx resp

theorem consultImport_inForce (req : Wire.ImportRequest) :
    Returns (server.consultImport req) (server.OutcomeInForce req.typeName [] req.identity) := by
  refine (returns_found _).bind fun r hr => (returns_schemaOf _).bind fun schema hschema => ?_
  refine (returns_identitySchemaOf _).bind fun identitySchema hidentitySchema => ?_
  refine (returns_decodeIdentity _ _ _).bind fun identity hidentity => returns_bind fun state => ?_
  refine returns_bind fun resp => returns_pure ⟨⟨r, hr, hschema, hidentitySchema⟩, ?_, identity, hidentity⟩
  exact List.forall_mem_nil _

theorem consultData_inForce (req : Wire.ConfigRequest) : Returns (server.consultData req) fun o =>
    ∃ d, server.registry.dataSource req.typeName = .ok d ∧ InForce d.schema o.schema ∧
      ∃ v, Payload.decodeFor o.schema req.config = .ok v := by
  refine (returns_found _).bind fun d hd => (returns_schemaOf _).bind fun schema hschema => ?_
  refine (returns_decode _ _ _).bind fun config hconfig => returns_bind fun resp => ?_
  exact returns_pure ⟨d, hd, hschema, config, hconfig⟩

end

/-- A listing decodes its configuration with the schema of the list resource and encodes with those of the resource. -/
theorem ListBasis.Found.inForce {server : Server σ} {basis : ListBasis σ} {req : Wire.ListRequest} {s s' : σ}
    (h : basis.Found server req s s') : InForce basis.listResource.schema basis.listSchema ∧
      InForce basis.resource.schema basis.schema ∧
      IdentityInForce basis.resource.identitySchema basis.identitySchema := by
  obtain ⟨s₁, s₂, hlistSchema, hschema, hidentitySchema⟩ := h.reported
  exact ⟨⟨s, s₁, exec_schemaOf_eq_ok.2 hlistSchema⟩, ⟨s₁, s₂, exec_schemaOf_eq_ok.2 hschema⟩,
    ⟨s₂, s', exec_identitySchemaOf_eq_ok.2 hidentitySchema⟩⟩

/-- **Whoever was sent the schemas in some state restores from them what an operation works with** in any other. -/
theorem SchemasInForce.restores {server : Server σ} {s : σ} (h : server.SchemasInForce s) {name : String}
    {payloads : List (Option Payload)} {identity : Option IdentityPayload} {o : Outcome}
    (ho : server.OutcomeInForce name payloads identity o) {schema : Schema} (hschema : o.schema = some schema) :
    ∃ w, Table.find? name (server.getProviderSchema.run s).1.resources = some w ∧ w.Restores schema := by
  obtain ⟨r, hr, hin, -⟩ := ho.inForce
  rw [hschema] at hin
  exact h.resources.restored name r schema (Registry.find?_of_lookUp hr) hin

theorem IdentitySchemasInForce.restores {server : Server σ} {s : σ} (h : server.IdentitySchemasInForce s)
    {name : String} {payloads : List (Option Payload)} {identity : Option IdentityPayload} {o : Outcome}
    (ho : server.OutcomeInForce name payloads identity o) {schema : IdentitySchema}
    (hschema : o.identitySchema = some schema) :
    ∃ w, Table.find? name (server.getIdentitySchemas.run s).1.schemas = some w ∧ w.Restores schema := by
  obtain ⟨r, hr, -, hin⟩ := ho.inForce
  rw [hschema] at hin
  exact h.resources.restored name r schema (Registry.find?_of_lookUp hr) hin

/-! ### An archive

Each sub-call is counted in the state.  The archive has an attribute with an empty description.  Folders and shelves are
still drafts, and say so: folders without a schema, shelves beside theirs. -/

def archiveSchema : Schema := rackSchema.addAttribute "note" ((Attribute.optional .string).describe "")

def archiveResource : Resource Nat where
  schema _ resp n := ({ resp with schema := some archiveSchema }, n + 1)
  identitySchema _ resp n := ({ resp with schema := some rackIdentity }, n + 1)

def folderSource : DataSource Nat where
  schema _ resp n := ({ resp with diagnostics := [.warning "Folders are a draft" none] }, n + 1)

def shelfSource : DataSource Nat where
  schema _ _ n := (⟨some archiveSchema, [.warning "Shelves are a draft" none]⟩, n + 1)

def archiveServer : Server Nat :=
  ⟨((({ provider := {} : Registry Nat }).addResource "archive" archiveResource).addDataSource "folder"
    folderSource).addDataSource "shelf" shelfSource, {}⟩

theorem archiveServer_ordered : archiveServer.registry.Ordered :=
  (((Registry.ordered_of_provider {}).addResource "archive" archiveResource).addDataSource "folder"
    folderSource).addDataSource "shelf" shelfSource

theorem archiveSchema_advertisable : archiveSchema.WellFormed ∧ archiveSchema.Readable := by decide +kernel

theorem archiveServer_advertisable : archiveServer.registry.SchemasAdvertisable where
  provider := ⟨fun _ _ => rfl, fun _ _ h => nomatch h⟩
  resources e he := by
    cases List.mem_singleton.1 he
    exact ⟨fun _ _ => rfl, fun _ _ h => Option.some.inj h ▸ archiveSchema_advertisable⟩
  dataSources e he := by
    have he : e = ("folder", folderSource) ∨ e = ("shelf", shelfSource) := List.mem_pair.1 he
    rcases he with rfl | rfl
    · exact ⟨fun _ _ => rfl, fun _ _ h => nomatch h⟩
    · exact ⟨fun _ _ => rfl, fun _ _ h => Option.some.inj h ▸ archiveSchema_advertisable⟩
  listResources e he := nomatch he
  stateStores e he := nomatch he

/-- The message for shelves restores their schema, though it is in force for no request. -/
theorem advertised_in_force_archive :
    (archiveServer.observed.getProviderSchema.run (0, [])).2 = (3, [.provider .schema, .resource "archive" .schema,
        .dataSource "folder" .schema, .dataSource "shelf" .schema]) ∧
      (∃ w, Table.find? "archive" (archiveServer.getProviderSchema.run 0).1.resources = some w ∧
        w.Restores archiveSchema) ∧
      Table.names (archiveServer.getProviderSchema.run 0).1.dataSources = ["shelf"] ∧
      (∃ w, Table.find? "shelf" (archiveServer.getProviderSchema.run 0).1.dataSources = some w ∧
        w.Restores archiveSchema) ∧
      (¬ ∃ schema, InForce shelfSource.schema schema) ∧
      (archiveServer.getProviderSchema.run 0).1.diagnostics =
        [⟨2, "Folders are a draft", "", none⟩, ⟨2, "Shelves are a draft", "", none⟩] ∧
      ∃ w, Table.find? "archive" (archiveServer.getIdentitySchemas.run 0).1.schemas = some w ∧
        w.Restores rackIdentity := by
  have hidentities : ∀ e ∈ archiveServer.registry.resources, IdentityAdvertisable e.2.identitySchema := by
    intro e he
    cases List.mem_singleton.1 he
    have hidentity : rackIdentity.WellFormed ∧ rackIdentity.Readable := by decide +kernel
    exact ⟨fun _ _ => rfl, fun _ _ h => Option.some.inj h ▸ hidentity⟩
  obtain ⟨schemas, identities⟩ := advertised_in_force archiveServer archiveServer_ordered 0
  have hschemas := schemas archiveServer_advertisable
  have hidentities := identities hidentities
  have hshelf : ¬ ∃ schema, InForce shelfSource.schema schema := by
    rintro ⟨schema, s, s', hexec⟩
    cases exec_schemaOf_eq_ok.1 hexec
  exact ⟨congrArg Prod.snd hschemas.calls, hschemas.resources.restored "archive" _ _ rfl ⟨0, 1, rfl⟩,
    hschemas.dataSources.names, hschemas.dataSources.sent "shelf" _ _ rfl rfl, hshelf, hschemas.diagnostics,
    hidentities.resources.restored "archive" _ _ rfl ⟨0, 1, rfl⟩⟩

end Server

end ProviderProtocol
