import ProviderProtocol.Schema.Basic
import ProviderProtocol.Value.Transform
import ProviderProtocol.Value.Walk
/-!
# Planning: what the provider will compute

Before a provider plans a change, every computed attribute that the configuration leaves null becomes unknown in the
proposal.  The configuration leaves a node null if the walk along the node's path reaches a null or is blocked by a
null or unknown value; where an index, key or element of the proposal is absent from the configuration, the proposal
stands.  The root itself is never marked.
-/
namespace ProviderProtocol

namespace Schema

/-- Does this path address an attribute that the provider computes? -/
def isComputedAt (s : Schema) (path : Path) : Bool :=
  match s.attributeAt? path with
  | some a => a.isComputed
  | none   => false

/-- Does the configuration leave the node at this path null? -/
def leavesNull (config : Value) (path : Path) : Except ProviderError Bool :=
  match config.walkDeepest path with
  | .error why        => .error (.invalidPath why)
  | .ok (.reached v)  => .ok v.isNull
  | .ok (.blocked _)  => .ok true
  | .ok (.missing _)  => .ok false

/-- What becomes of one node of the proposal. -/
def markNode (s : Schema) (config : Value) (path : Path) (v : Value) : Except ProviderError Value :=
  if path.isEmpty then .ok v
  else do
    let isNull ← leavesNull config path
    pure (if isNull && s.isComputedAt path then .unknown v.ty else v)

def markComputedUnknown (s : Schema) (config proposed : Value) : Except ProviderError Value :=
  proposed.transform (s.markNode config)

end Schema

end ProviderProtocol
