import ProviderProtocol.Capability.DataSource
import ProviderProtocol.Capability.ListResource
import ProviderProtocol.Capability.Provider
import ProviderProtocol.Capability.Resource
import ProviderProtocol.Capability.StateStore
/-!
# The registry

A provider and its implementations by type name, each kind in ascending order of the names.  A name that is registered
again is replaced.  Looking up a name that is not registered is reported with the kind and the quoted name.
-/
namespace ProviderProtocol

structure Registry (σ : Type) where
  provider : Provider σ
  resources : List (String × Resource σ) := []
  dataSources : List (String × DataSource σ) := []
  listResources : List (String × ListResource σ) := []
  stateStores : List (String × StateStore σ) := []

namespace Registry

def addResource (r : Registry σ) (name : String) (x : Resource σ) : Registry σ :=
  { r with resources := Table.insert name x r.resources }

def addDataSource (r : Registry σ) (name : String) (x : DataSource σ) : Registry σ :=
  { r with dataSources := Table.insert name x r.dataSources }

def addListResource (r : Registry σ) (name : String) (x : ListResource σ) : Registry σ :=
  { r with listResources := Table.insert name x r.listResources }

def addStateStore (r : Registry σ) (name : String) (x : StateStore σ) : Registry σ :=
  { r with stateStores := Table.insert name x r.stateStores }

/-! ## Look-up -/

def missing (kind name : String) : Diagnostic :=
  .error ("Missing " ++ kind ++ " Type")
    (some ("No " ++ kind ++ " named " ++ Text.quote name ++ " is registered with this provider."))

def lookUp (kind name : String) (t : List (String × α)) : Except Diagnostic α :=
  match Table.find? name t with
  | some x => .ok x
  | none   => .error (missing kind name)

def resource (r : Registry σ) (name : String) : Except Diagnostic (Resource σ) := lookUp "Resource" name r.resources

def dataSource (r : Registry σ) (name : String) : Except Diagnostic (DataSource σ) :=
  lookUp "DataSource" name r.dataSources

def listResource (r : Registry σ) (name : String) : Except Diagnostic (ListResource σ) :=
  lookUp "ListResource" name r.listResources

def stateStore (r : Registry σ) (name : String) : Except Diagnostic (StateStore σ) :=
  lookUp "StateStore" name r.stateStores

end Registry

end ProviderProtocol
