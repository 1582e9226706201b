import ProviderProtocol.Capability.Handler
/-!
# List resources

A list resource finds existing resources and hands its results over one by one.  Each time it learns whether more are
wanted, and it may go on all the same.  What it does is a `Listing`: a tree that either finishes in some state or
pushes a result and continues as the answer has it.  A listing is finite whatever the answers are.
-/
namespace ProviderProtocol

structure ListRequest where
  config : Value
  includeObject : Bool
  limit : Int

structure ListResult where
  identity : Option Value
  displayName : String
  object : Option Value
  diagnostics : List Diagnostic

inductive Listing (σ : Type)
  | finish (state : σ)
  | push (result : ListResult) (resume : Bool → Listing σ)

namespace Listing

/-- Pushes the results in order until no more are wanted. -/
def ofResults (state : σ) : List ListResult → Listing σ
  | []      => .finish state
  | r :: rs => .push r fun more => if more then ofResults state rs else .finish state

end Listing

structure ListResource (σ : Type) where
  schema : Handler σ Unit SchemaResponse := .pass
  validateConfig : Validator σ ListRequest := .pass
  list : ListRequest → σ → Listing σ := fun _ s => .finish s

end ProviderProtocol
