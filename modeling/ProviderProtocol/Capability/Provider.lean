import ProviderProtocol.Capability.Handler
/-!
# The provider itself

What a provider does apart from its resources: it reports the schema of its configuration, validates one, takes one
and stops.  A handler that is not given does nothing.
-/
namespace ProviderProtocol

structure ConfigureRequest where
  clientVersion : String
  config : Value

structure Provider (σ : Type) where
  schema : Handler σ Unit SchemaResponse := .pass
  validateConfig : Validator σ Value := .pass
  configure : Handler σ ConfigureRequest (List Diagnostic) := .pass
  /-- The response is an error message, if stopping failed. -/
  stop : Handler σ Unit (Option String) := .pass

end ProviderProtocol
