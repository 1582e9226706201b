import ProviderProtocol.Diagnostic
import ProviderProtocol.Schema.Basic
/-!
# Handlers

A provider's own code is a set of handlers.  A handler gets a request and a response that is already filled with what
doing nothing amounts to, and gives back the response to use; on the way it may read and change the state `σ` of the
provider, about which nothing is assumed.  The handler that does nothing is `pass`.

A `Behavior` is a handler given by example: a canned response that replaces the filled one, or a hook.
-/
namespace ProviderProtocol

abbrev Handler (σ Request Response : Type) := Request → Response → StateM σ Response

namespace Handler

def pass : Handler σ Request Response := fun _ resp => pure resp

end Handler

inductive Behavior (σ Request Response : Type)
  | respond (canned : Response)
  | hook (run : Handler σ Request Response)

namespace Behavior

def handler : Behavior σ Request Response → Handler σ Request Response
  | .respond canned => fun _ _ => pure canned
  | .hook run       => run

/-- An absent behavior does nothing. -/
def orPass : Option (Behavior σ Request Response) → Handler σ Request Response
  | some b => b.handler
  | none   => .pass

/-- Shows a canned response and hides a hook. -/
def text (render : Response → String) : Behavior σ Request Response → String
  | .respond canned => "Respond(" ++ render canned ++ ")"
  | .hook _         => "Hook(..)"

end Behavior

/-! ## Schemas

Every capability can be asked for its schema; the answer is empty beforehand. -/

structure SchemaResponse where
  schema : Option Schema := none
  diagnostics : List Diagnostic := []

structure IdentitySchemaResponse where
  schema : Option IdentitySchema := none
  diagnostics : List Diagnostic := []

/-- Reports a schema, if there is one, and nothing else. -/
def reportSchema (schema : Option Schema) : Handler σ Unit SchemaResponse :=
  fun _ resp => pure (match schema with | some s => { resp with schema := some s } | none => resp)

/-- A handler for a request that can only be found valid or not. -/
abbrev Validator (σ Request : Type) := Handler σ Request (List Diagnostic)

end ProviderProtocol
