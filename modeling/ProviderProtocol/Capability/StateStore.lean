import ProviderProtocol.Capability.Handler
/-!
# State stores

A state store keeps the saved states of a client as bytes under an id, and locks on them.  A handler that is not given
does nothing.
-/
namespace ProviderProtocol

structure ConfigureStoreRequest where
  config : Value
  /-- The chunk size the client asks for; not positive if it has no wish. -/
  chunkSize : Int

structure ConfigureStoreResponse where
  chunkSize : Int
  diagnostics : List Diagnostic

structure StatesResponse where
  ids : List String
  diagnostics : List Diagnostic

structure LockRequest where
  id : String
  operation : String

structure LockResponse where
  lockId : String
  diagnostics : List Diagnostic

structure UnlockRequest where
  id : String
  lockId : String

structure ReadBytesResponse where
  bytes : Bytes
  chunkSize : Int
  diagnostics : List Diagnostic

structure WriteBytesRequest where
  id : String
  bytes : Bytes

structure StateStore (σ : Type) where
  schema : Handler σ Unit SchemaResponse := .pass
  validateConfig : Validator σ Value := .pass
  configure : Handler σ ConfigureStoreRequest ConfigureStoreResponse := .pass
  states : Handler σ Unit StatesResponse := .pass
  delete : Handler σ String (List Diagnostic) := .pass
  lock : Handler σ LockRequest LockResponse := .pass
  unlock : Handler σ UnlockRequest (List Diagnostic) := .pass
  readBytes : Handler σ String ReadBytesResponse := .pass
  writeBytes : Handler σ WriteBytesRequest (List Diagnostic) := .pass

end ProviderProtocol
