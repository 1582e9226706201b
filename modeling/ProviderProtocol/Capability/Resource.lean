import ProviderProtocol.Capability.Handler
import ProviderProtocol.Codec.Schema
/-!
# Managed resources

A resource type reports its schema and that of its identity, validates configurations, plans changes and carries them
out as create, update or delete, reads the current state, imports what exists already and upgrades saved state of
other versions.  Beside the state a resource has private bytes, which only the provider reads, and an identity, which
may be absent.  A handler that is not given does nothing.
-/
namespace ProviderProtocol

structure CreateRequest where
  config : Value
  plannedState : Value
  plannedPrivate : Bytes
  plannedIdentity : Option Value

structure ReadRequest where
  currentState : Value
  privateBytes : Bytes
  currentIdentity : Option Value

structure UpdateRequest where
  config : Value
  plannedState : Value
  priorState : Value
  plannedPrivate : Bytes
  plannedIdentity : Option Value

/-- The answer to create, read and update. -/
structure StateResponse where
  newState : Value
  newIdentity : Option Value
  privateBytes : Bytes
  diagnostics : List Diagnostic

structure DeleteRequest where
  priorState : Value
  priorIdentity : Option Value

structure PlanRequest where
  config : Value
  priorState : Value
  proposedState : Value
  priorPrivate : Bytes
  priorIdentity : Option Value

structure PlanResponse where
  plannedState : Value
  requiresReplace : List Path
  plannedPrivate : Bytes
  plannedIdentity : Option Value
  diagnostics : List Diagnostic

structure ImportRequest where
  id : String
  identity : Option Value

structure ImportResponse where
  state : Value
  identity : Option Value
  privateBytes : Bytes
  diagnostics : List Diagnostic

structure UpgradeRequest where
  version : Int64
  rawState : RawState

structure UpgradeResponse where
  state : Value
  diagnostics : List Diagnostic

structure Resource (σ : Type) where
  schema : Handler σ Unit SchemaResponse := .pass
  identitySchema : Handler σ Unit IdentitySchemaResponse := .pass
  validateConfig : Validator σ Value := .pass
  create : Handler σ CreateRequest StateResponse := .pass
  read : Handler σ ReadRequest StateResponse := .pass
  update : Handler σ UpdateRequest StateResponse := .pass
  delete : Handler σ DeleteRequest (List Diagnostic) := .pass
  planChange : Handler σ PlanRequest PlanResponse := .pass
  importState : Handler σ ImportRequest ImportResponse := .pass
  upgradeState : Handler σ UpgradeRequest UpgradeResponse := .pass

end ProviderProtocol
