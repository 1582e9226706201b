import ProviderProtocol.Capability.DataSource
import ProviderProtocol.Capability.ListResource
import ProviderProtocol.Capability.Provider
import ProviderProtocol.Capability.Resource
import ProviderProtocol.Capability.StateStore
/-!
# Stand-ins

An implementation for tests is put together from behaviors, one for each handler that matters to the test; where there
is none the stand-in does nothing.  `ofSchema` makes one that only reports a schema.
-/
namespace ProviderProtocol

/-- Reports this schema whenever it is asked. -/
def Behavior.ofSchema (schema : Schema) : Behavior σ Unit SchemaResponse := .respond ⟨some schema, []⟩

def Behavior.ofIdentitySchema (schema : IdentitySchema) : Behavior σ Unit IdentitySchemaResponse :=
  .respond ⟨some schema, []⟩

/-! ## Providers -/

structure ProviderDouble (σ : Type) where
  schema : Option (Behavior σ Unit SchemaResponse) := none
  validateConfig : Option (Behavior σ Value (List Diagnostic)) := none
  configure : Option (Behavior σ ConfigureRequest (List Diagnostic)) := none
  stop : Option (Behavior σ Unit (Option String)) := none

namespace ProviderDouble

def ofSchema (schema : Schema) : ProviderDouble σ := { schema := some (.ofSchema schema) }

def provider (d : ProviderDouble σ) : Provider σ where
  schema := Behavior.orPass d.schema
  validateConfig := Behavior.orPass d.validateConfig
  configure := Behavior.orPass d.configure
  stop := Behavior.orPass d.stop

end ProviderDouble

/-! ## Managed resources -/

structure ResourceDouble (σ : Type) where
  schema : Option (Behavior σ Unit SchemaResponse) := none
  identitySchema : Option (Behavior σ Unit IdentitySchemaResponse) := none
  validateConfig : Option (Behavior σ Value (List Diagnostic)) := none
  create : Option (Behavior σ CreateRequest StateResponse) := none
  read : Option (Behavior σ ReadRequest StateResponse) := none
  update : Option (Behavior σ UpdateRequest StateResponse) := none
  delete : Option (Behavior σ DeleteRequest (List Diagnostic)) := none
  planChange : Option (Behavior σ PlanRequest PlanResponse) := none
  importState : Option (Behavior σ ImportRequest ImportResponse) := none
  upgradeState : Option (Behavior σ UpgradeRequest UpgradeResponse) := none

namespace ResourceDouble

def ofSchema (schema : Schema) : ResourceDouble σ := { schema := some (.ofSchema schema) }

def withIdentitySchema (d : ResourceDouble σ) (schema : IdentitySchema) : ResourceDouble σ :=
  { d with identitySchema := some (.ofIdentitySchema schema) }

def resource (d : ResourceDouble σ) : Resource σ where
  schema := Behavior.orPass d.schema
  identitySchema := Behavior.orPass d.identitySchema
  validateConfig := Behavior.orPass d.validateConfig
  create := Behavior.orPass d.create
  read := Behavior.orPass d.read
  update := Behavior.orPass d.update
  delete := Behavior.orPass d.delete
  planChange := Behavior.orPass d.planChange
  importState := Behavior.orPass d.importState
  upgradeState := Behavior.orPass d.upgradeState

end ResourceDouble

/-! ## Data sources -/

structure DataSourceDouble (σ : Type) where
  schema : Option (Behavior σ Unit SchemaResponse) := none
  validateConfig : Option (Behavior σ Value (List Diagnostic)) := none
  read : Option (Behavior σ Value DataResponse) := none

namespace DataSourceDouble

def ofSchema (schema : Schema) : DataSourceDouble σ := { schema := some (.ofSchema schema) }

def dataSource (d : DataSourceDouble σ) : DataSource σ where
  schema := Behavior.orPass d.schema
  validateConfig := Behavior.orPass d.validateConfig
  read := Behavior.orPass d.read

end DataSourceDouble

/-! ## List resources -/

/-- A listing by example: fixed results, or a hook. -/
inductive ListBehavior (σ : Type)
  | results (results : List ListResult)
  | hook (run : ListRequest → σ → Listing σ)

/-- An absent behavior lists nothing. -/
def ListBehavior.orNothing : Option (ListBehavior σ) → ListRequest → σ → Listing σ
  | some (.results rs), _, s => .ofResults s rs
  | some (.hook run), req, s => run req s
  | none, _, s               => .finish s

structure ListResourceDouble (σ : Type) where
  schema : Option (Behavior σ Unit SchemaResponse) := none
  validateConfig : Option (Behavior σ ListRequest (List Diagnostic)) := none
  list : Option (ListBehavior σ) := none

namespace ListResourceDouble

def ofSchema (schema : Schema) : ListResourceDouble σ := { schema := some (.ofSchema schema) }

def listResource (d : ListResourceDouble σ) : ListResource σ where
  schema := Behavior.orPass d.schema
  validateConfig := Behavior.orPass d.validateConfig
  list := ListBehavior.orNothing d.list

end ListResourceDouble

/-! ## State stores -/

structure StateStoreDouble (σ : Type) where
  schema : Option (Behavior σ Unit SchemaResponse) := none
  validateConfig : Option (Behavior σ Value (List Diagnostic)) := none
  configure : Option (Behavior σ ConfigureStoreRequest ConfigureStoreResponse) := none
  states : Option (Behavior σ Unit StatesResponse) := none
  delete : Option (Behavior σ String (List Diagnostic)) := none
  lock : Option (Behavior σ LockRequest LockResponse) := none
  unlock : Option (Behavior σ UnlockRequest (List Diagnostic)) := none
  readBytes : Option (Behavior σ String ReadBytesResponse) := none
  writeBytes : Option (Behavior σ WriteBytesRequest (List Diagnostic)) := none

namespace StateStoreDouble

def ofSchema (schema : Schema) : StateStoreDouble σ := { schema := some (.ofSchema schema) }

def stateStore (d : StateStoreDouble σ) : StateStore σ where
  schema := Behavior.orPass d.schema
  validateConfig := Behavior.orPass d.validateConfig
  configure := Behavior.orPass d.configure
  states := Behavior.orPass d.states
  delete := Behavior.orPass d.delete
  lock := Behavior.orPass d.lock
  unlock := Behavior.orPass d.unlock
  readBytes := Behavior.orPass d.readBytes
  writeBytes := Behavior.orPass d.writeBytes

end StateStoreDouble

end ProviderProtocol
