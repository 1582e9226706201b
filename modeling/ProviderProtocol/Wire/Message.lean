import ProviderProtocol.Codec.Schema
import ProviderProtocol.Diagnostic
import ProviderProtocol.Schema.Wire
/-!
# Requests and responses

The messages of every operation, as a client sends and receives them.  In a request a payload may be absent; the
fields of a response have the defaults that an operation leaves when it reports errors only.
-/
namespace ProviderProtocol.Wire

/-! ## Provider -/

structure Capabilities where
  planDestroy : Bool
  providerSchemaOptional : Bool

structure Metadata where
  capabilities : Option Capabilities := none
  resources : List String := []
  dataSources : List String := []
  listResources : List String := []
  stateStores : List String := []
  diagnostics : List WireDiagnostic := []

structure ProviderSchema where
  capabilities : Option Capabilities := none
  provider : Option WireSchema := none
  resources : List (String × WireSchema) := []
  dataSources : List (String × WireSchema) := []
  listResources : List (String × WireSchema) := []
  stateStores : List (String × WireSchema) := []
  diagnostics : List WireDiagnostic := []

structure IdentitySchemas where
  schemas : List (String × WireIdentitySchema) := []
  diagnostics : List WireDiagnostic := []

structure ConfigureRequest where
  clientVersion : String
  config : Option Payload

/-- A configuration to validate, or to read a data source with. -/
structure ConfigRequest where
  typeName : String
  config : Option Payload

/-- The answer of operations that report and return nothing else. -/
structure Report where
  diagnostics : List WireDiagnostic := []

/-! ## Managed resources -/

structure UpgradeRequest where
  typeName : String
  version : Int64
  rawState : Option RawState

structure UpgradeResponse where
  state : Option Payload := none
  diagnostics : List WireDiagnostic := []

structure ReadRequest where
  typeName : String
  currentState : Option Payload
  privateBytes : Bytes
  currentIdentity : Option IdentityPayload

/-- The answer to reading and to applying a change. -/
structure StateResponse where
  newState : Option Payload := none
  newIdentity : Option IdentityPayload := none
  privateBytes : Bytes := []
  diagnostics : List WireDiagnostic := []

structure PlanRequest where
  typeName : String
  priorState : Option Payload
  proposedState : Option Payload
  config : Option Payload
  priorPrivate : Bytes
  priorIdentity : Option IdentityPayload

structure PlanResponse where
  plannedState : Option Payload := none
  requiresReplace : List Path.Wire := []
  plannedPrivate : Bytes := []
  plannedIdentity : Option IdentityPayload := none
  diagnostics : List WireDiagnostic := []

structure ApplyRequest where
  typeName : String
  priorState : Option Payload
  plannedState : Option Payload
  config : Option Payload
  plannedPrivate : Bytes
  plannedIdentity : Option IdentityPayload

structure ImportRequest where
  typeName : String
  id : String
  identity : Option IdentityPayload

structure ImportedResource where
  typeName : String
  state : Option Payload
  privateBytes : Bytes
  identity : Option IdentityPayload

structure ImportResponse where
  imported : List ImportedResource := []
  diagnostics : List WireDiagnostic := []

/-! ## Data sources and list resources -/

structure DataResponse where
  state : Option Payload := none
  diagnostics : List WireDiagnostic := []

structure ListRequest where
  typeName : String
  config : Option Payload
  includeObject : Bool
  limit : Int

structure ListEvent where
  identity : Option IdentityPayload := none
  displayName : String := ""
  object : Option Payload := none
  diagnostics : List WireDiagnostic := []

/-! ## State stores -/

structure ConfigureStoreRequest where
  typeName : String
  config : Option Payload
  /-- The client's chunk size, if it states one. -/
  chunkSize : Option Int

structure ConfigureStoreResponse where
  chunkSize : Option Int := none
  diagnostics : List WireDiagnostic := []

structure StatesResponse where
  ids : List String := []
  diagnostics : List WireDiagnostic := []

/-- Names a state of a store. -/
structure StateRequest where
  typeName : String
  id : String

structure LockRequest where
  typeName : String
  id : String
  operation : String

structure LockResponse where
  lockId : String := ""
  diagnostics : List WireDiagnostic := []

structure UnlockRequest where
  typeName : String
  id : String
  lockId : String

/-- The bytes from `start` up to but not including `stop`. -/
structure ByteRange where
  start : Int
  stop : Int
  deriving DecidableEq

structure DownloadChunk where
  bytes : Bytes := []
  totalLength : Int := 0
  range : Option ByteRange := none
  diagnostics : List WireDiagnostic := []

structure UploadChunk where
  target : Option StateRequest
  bytes : Bytes
  totalLength : Int
  range : Option ByteRange

end ProviderProtocol.Wire
