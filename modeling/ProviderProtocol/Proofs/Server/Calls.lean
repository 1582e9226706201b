import ProviderProtocol.Proofs.Server.Run
import ProviderProtocol.Proofs.Table
import ProviderProtocol.Server.Basic
/-!
# The calls of a run

A server does not tell which handlers it calls.  `Server.observed` is the same server over a state that keeps a log:
each handler does what it did and notes its call, with the request and the response it was given.  What a request calls
is read off the log that the observed server leaves.

An operation that is the observation of another one ends like it, leaves the same state and appends its calls to the log
(`Observes`); this passes from the steps of an operation to the operation (`Observes.bind`).
-/
namespace ProviderProtocol

/-! ## Calls -/

inductive ProviderCall
  | schema
  | validateConfig (config : Value)
  | configure (req : ConfigureRequest)
  | stop

inductive ResourceCall
  | schema
  | identitySchema
  | validateConfig (config : Value)
  | create (req : CreateRequest) (resp : StateResponse)
  | read (req : ReadRequest) (resp : StateResponse)
  | update (req : UpdateRequest) (resp : StateResponse)
  | delete (req : DeleteRequest)
  | planChange (req : PlanRequest) (resp : PlanResponse)
  | importState (req : ImportRequest) (resp : ImportResponse)
  | upgradeState (req : UpgradeRequest) (resp : UpgradeResponse)

inductive DataSourceCall
  | schema
  | validateConfig (config : Value)
  | read (config : Value) (resp : DataResponse)

inductive ListResourceCall
  | schema
  | validateConfig (req : ListRequest)
  | list (req : ListRequest)

inductive StateStoreCall
  | schema
  | validateConfig (config : Value)
  | configure (req : ConfigureStoreRequest) (resp : ConfigureStoreResponse)
  | states
  | delete (id : String)
  | lock (req : LockRequest)
  | unlock (req : UnlockRequest)
  | readBytes (id : String) (resp : ReadBytesResponse)
  | writeBytes (req : WriteBytesRequest)

/-- A call of a handler, with the type name that its implementation is registered under. -/
inductive Call
  | provider (call : ProviderCall)
  | resource (name : String) (call : ResourceCall)
  | dataSource (name : String) (call : DataSourceCall)
  | listResource (name : String) (call : ListResourceCall)
  | stateStore (name : String) (call : StateStoreCall)

/-! ## Observed servers -/

/-- The handler over a state with a log, on which it notes each call. -/
def Handler.observed (note : Request → Response → Call) (h : Handler σ Request Response) :
    Handler (σ × List Call) Request Response :=
  fun req resp s => ((h req resp s.1).1, (h req resp s.1).2, s.2 ++ [note req resp])

def Listing.observed (log : List Call) : Listing σ → Listing (σ × List Call)
  | .finish s        => .finish (s, log)
  | .push r resume => .push r fun more => (resume more).observed log

def Provider.observed (p : Provider σ) : Provider (σ × List Call) where
  schema := p.schema.observed fun _ _ => .provider .schema
  validateConfig := p.validateConfig.observed fun config _ => .provider (.validateConfig config)
  configure := p.configure.observed fun req _ => .provider (.configure req)
  stop := p.stop.observed fun _ _ => .provider .stop

def Resource.observed (name : String) (r : Resource σ) : Resource (σ × List Call) where
  schema := r.schema.observed fun _ _ => .resource name .schema
  identitySchema := r.identitySchema.observed fun _ _ => .resource name .identitySchema
  validateConfig := r.validateConfig.observed fun config _ => .resource name (.validateConfig config)
  create := r.create.observed fun req resp => .resource name (.create req resp)
  read := r.read.observed fun req resp => .resource name (.read req resp)
  update := r.update.observed fun req resp => .resource name (.update req resp)
  delete := r.delete.observed fun req _ => .resource name (.delete req)
  planChange := r.planChange.observed fun req resp => .resource name (.planChange req resp)
  importState := r.importState.observed fun req resp => .resource name (.importState req resp)
  upgradeState := r.upgradeState.observed fun req resp => .resource name (.upgradeState req resp)

def DataSource.observed (name : String) (d : DataSource σ) : DataSource (σ × List Call) where
  schema := d.schema.observed fun _ _ => .dataSource name .schema
  validateConfig := d.validateConfig.observed fun config _ => .dataSource name (.validateConfig config)
  read := d.read.observed fun config resp => .dataSource name (.read config resp)

def ListResource.observed (name : String) (l : ListResource σ) : ListResource (σ × List Call) where
  schema := l.schema.observed fun _ _ => .listResource name .schema
  validateConfig := l.validateConfig.observed fun req _ => .listResource name (.validateConfig req)
  list req s := (l.list req s.1).observed (s.2 ++ [.listResource name (.list req)])

def StateStore.observed (name : String) (t : StateStore σ) : StateStore (σ × List Call) where
  schema := t.schema.observed fun _ _ => .stateStore name .schema
  validateConfig := t.validateConfig.observed fun config _ => .stateStore name (.validateConfig config)
  configure := t.configure.observed fun req resp => .stateStore name (.configure req resp)
  states := t.states.observed fun _ _ => .stateStore name .states
  delete := t.delete.observed fun id _ => .stateStore name (.delete id)
  lock := t.lock.observed fun req _ => .stateStore name (.lock req)
  unlock := t.unlock.observed fun req _ => .stateStore name (.unlock req)
  readBytes := t.readBytes.observed fun id resp => .stateStore name (.readBytes id resp)
  writeBytes := t.writeBytes.observed fun req _ => .stateStore name (.writeBytes req)

def Registry.observed (r : Registry σ) : Registry (σ × List Call) where
  provider := r.provider.observed
  resources := r.resources.map fun e => (e.1, e.2.observed e.1)
  dataSources := r.dataSources.map fun e => (e.1, e.2.observed e.1)
  listResources := r.listResources.map fun e => (e.1, e.2.observed e.1)
  stateStores := r.stateStores.map fun e => (e.1, e.2.observed e.1)

def Server.observed (server : Server σ) : Server (σ × List Call) := ⟨server.registry.observed, server.options⟩

theorem Registry.find?_of_lookUp {kind name : String} {t : List (String × α)} {a : α} (h : lookUp kind name t = .ok a) :
    Table.find? name t = some a := by
  unfold lookUp at h
  split at h
  · rename_i hfind
    cases h
    exact hfind
  · cases h

theorem Registry.lookUp_map (kind name : String) (f : String × α → β) (t : List (String × α)) :
    lookUp kind name (t.map fun e => (e.1, f e)) = (lookUp kind name t).map fun a => f (name, a) := by
  unfold lookUp
  rw [Table.find?_map]
  cases Table.find? name t with
  | none   => rfl
  | some a => rfl

theorem Registry.resource_observed (r : Registry σ) (name : String) :
    r.observed.resource name = (r.resource name).map fun resource => resource.observed name :=
  lookUp_map _ _ _ _

theorem Registry.dataSource_observed (r : Registry σ) (name : String) :
    r.observed.dataSource name = (r.dataSource name).map fun source => source.observed name :=
  lookUp_map _ _ _ _

theorem Registry.listResource_observed (r : Registry σ) (name : String) :
    r.observed.listResource name = (r.listResource name).map fun listResource => listResource.observed name :=
  lookUp_map _ _ _ _

theorem Registry.stateStore_observed (r : Registry σ) (name : String) :
    r.observed.stateStore name = (r.stateStore name).map fun store => store.observed name :=
  lookUp_map _ _ _ _

/-! ## Observing operations -/

namespace Operation

/-- `observed` ends as `op` does, leaves the same state and appends to the log the calls that `op` makes. -/
def Observes (op : Operation σ α) (observed : Operation (σ × List Call) α) (calls : σ → List Call) : Prop :=
  ∀ s log, exec observed (s, log) = ((exec op s).1, (exec op s).2, log ++ calls s)

theorem observes_orHalt (summary : String) (e : Except ProviderError α) :
    Observes (orHalt summary e : Operation σ α) (orHalt summary e) fun _ => [] := by
  intro s log
  rw [exec_orHalt, exec_orHalt, List.append_nil]

theorem observes_pure (a : α) : Observes (pure a : Operation σ α) (pure a) fun _ => [] := by
  intro s log
  rw [exec_pure, exec_pure, List.append_nil]

theorem observes_halt (d : Diagnostic) : Observes (halt d : Operation σ α) (halt d) fun _ => [] := by
  intro s log
  rw [List.append_nil]
  rfl

theorem observes_check (ds : List Diagnostic) : Observes (check ds : Operation σ Unit) (check ds) fun _ => [] := by
  intro s log
  rw [exec_check, exec_check, List.append_nil]

theorem observes_call (note : Request → Response → Call) (h : Handler σ Request Response) (req : Request)
    (resp : Response) : Observes (call h req resp) (call (h.observed note) req resp) fun _ => [note req resp] :=
  fun _ _ => rfl

theorem observes_schemaOf (note : Call) (h : Handler σ Unit SchemaResponse) :
    Observes (schemaOf h) (schemaOf (h.observed fun _ _ => note)) fun _ => [note] := by
  intro s log
  rw [exec_schemaOf, exec_schemaOf]
  rfl

theorem observes_identitySchemaOf (note : Call) (h : Handler σ Unit IdentitySchemaResponse) :
    Observes (identitySchemaOf h) (identitySchemaOf (h.observed fun _ _ => note)) fun _ => [note] := by
  intro s log
  rw [exec_identitySchemaOf, exec_identitySchemaOf]
  rfl

/-- The calls of two steps: the second one is run, and makes its calls, only if the first one has a result. -/
def callsOfBind (op : Operation σ α) (calls : σ → List Call) (more : α → σ → List Call) (s : σ) : List Call :=
  calls s ++ match exec op s with
    | (.ok a, s')   => more a s'
    | (.error _, _) => []

theorem Observes.bind {op : Operation σ α} {op' : Operation (σ × List Call) α} {f : α → Operation σ β}
    {f' : α → Operation (σ × List Call) β} {calls : σ → List Call} {more : α → σ → List Call}
    (h : Observes op op' calls) (hf : ∀ a, Observes (f a) (f' a) (more a)) :
    Observes (op >>= f) (op' >>= f') (callsOfBind op calls more) := by
  intro s log
  rw [exec_bind, exec_bind, h s log, callsOfBind]
  obtain ⟨r, s'⟩ := exec op s
  cases r with
  | ok a =>
    show exec (f' a) (s', log ++ calls s) = _
    rw [hf a s' (log ++ calls s), List.append_assoc]
  | error ds =>
    show (Except.error ds, s', log ++ calls s) = (Except.error ds, s', log ++ (calls s ++ []))
    rw [List.append_nil]

/-- A second step that makes no calls. -/
theorem Observes.bind_silent {op : Operation σ α} {op' : Operation (σ × List Call) α} {f : α → Operation σ β}
    {f' : α → Operation (σ × List Call) β} {calls : σ → List Call} (h : Observes op op' calls)
    (hf : ∀ a, Observes (f a) (f' a) fun _ => []) : Observes (op >>= f) (op' >>= f') calls := by
  have hcalls : callsOfBind op calls (fun _ _ => []) = calls := by
    funext s
    unfold callsOfBind
    split
    · exact List.append_nil _
    · exact List.append_nil _
  rw [← hcalls]
  exact h.bind hf

theorem Observes.answer {op : Operation σ ρ} {op' : Operation (σ × List Call) ρ} {calls : σ → List Call}
    (h : Observes op op' calls) (halted : List WireDiagnostic → ρ) (s : σ) :
    (Operation.answer halted op').run (s, []) =
      (((Operation.answer halted op).run s).1, ((Operation.answer halted op).run s).2, calls s) := by
  rw [run_answer, run_answer, h s [], List.nil_append]

end Operation

end ProviderProtocol
