import ProviderProtocol.Capability.Handler
/-!
# Data sources

A data source is read with a configuration and answers a state; nothing is changed.  A handler that is not given does
nothing.
-/
namespace ProviderProtocol

structure DataResponse where
  state : Value
  diagnostics : List Diagnostic

structure DataSource (σ : Type) where
  schema : Handler σ Unit SchemaResponse := .pass
  validateConfig : Validator σ Value := .pass
  read : Handler σ Value DataResponse := .pass

end ProviderProtocol
