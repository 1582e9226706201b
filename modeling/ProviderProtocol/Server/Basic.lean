import ProviderProtocol.Server.Operation
/-!
# The server

A server answers the operations of the protocol with the implementations of a registry, under a few options.  It has
no state of its own: what lasts from one request to the next is the provider's.
-/
namespace ProviderProtocol

/-- Eight mebibytes. -/
def defaultChunkSize : Int := 8388608

structure ServerOptions where
  /-- The size of the chunks in which states are sent, where a state store does not set one. -/
  stateChunkSize : Int := defaultChunkSize
  /-- Advertised to clients: they need not fetch the schemas. -/
  providerSchemaOptional : Bool := false

namespace ServerOptions

/-- The chunk size in force; one that is not positive is no choice. -/
def chunkSize (o : ServerOptions) : Int := if 0 < o.stateChunkSize then o.stateChunkSize else defaultChunkSize

end ServerOptions

structure Server (σ : Type) where
  registry : Registry σ
  options : ServerOptions := {}

namespace Server

def capabilities (server : Server σ) : Wire.Capabilities := ⟨true, server.options.providerSchemaOptional⟩

end Server

end ProviderProtocol
