import ProviderProtocol.Server.Resource
/-!
# Operations on list resources

Results are delivered one by one to a sink of the caller, which says after each event whether it wants more.  A
`Delivery` remembers how far it has come.  It is over when the sink wants no more, when a positive limit is reached or
when a result cannot be encoded; after that nothing that the implementation pushes reaches the sink.  Diagnostics that
end the operation, whether before the listing or by a result that cannot be encoded, are one last event of their own.
-/
namespace ProviderProtocol.Server

open Operation (answer call decode encode encodeIdentity found identitySchemaOf schemaOf)

def validateListConfig (server : Server σ) (req : Wire.ListRequest) : StateM σ Wire.Report :=
  answer Wire.Report.mk do
    let listResource ← found (server.registry.listResource req.typeName)
    let config ← configFor listResource.schema req.config
    return ⟨wire (← call listResource.validateConfig ⟨config, req.includeObject, req.limit⟩ [])⟩

/-! ## Events -/

/-- What results are encoded with. -/
structure ListContext where
  includeObject : Bool
  limit : Int
  schema : Option Schema
  identitySchema : Option IdentitySchema

def encoded (what : String) : Except ProviderError α → Except (List Diagnostic) α
  | .ok a    => .ok a
  | .error e => .error [.ofError ("Error Encoding " ++ what) e]

/-- The event of a result; the object is encoded only if it was asked for. -/
def listEvent (ctx : ListContext) (r : ListResult) : Except (List Diagnostic) Wire.ListEvent := do
  let identity ← encoded "List Result Identity" (IdentityPayload.encodeFor ctx.identitySchema r.identity)
  let object ← match r.object with
    | some v =>
      if ctx.includeObject then
        (encoded "List Result Resource Object" (Payload.encodeFor ctx.schema v)).map some
      else pure none
    | none => pure none
  return ⟨identity, r.displayName, object, wire r.diagnostics⟩

/-! ## Delivery -/

/-- A caller's sink, with a state of its own: it takes an event and says whether it wants more. -/
abbrev Sink (τ : Type) := Wire.ListEvent → StateM τ Bool

structure Delivery (τ : Type) where
  sink : τ
  count : Nat := 0
  done : Bool := false
  failure : Option (List Diagnostic) := none

/-- Delivers a result and says whether more are wanted. -/
def deliver (ctx : ListContext) (emit : Sink τ) (d : Delivery τ) (r : ListResult) : Bool × Delivery τ :=
  if d.done then (false, d)
  else match listEvent ctx r with
    | .error ds  => (false, { d with done := true, failure := some ds })
    | .ok event =>
      let (more, sink) := (emit event).run d.sink
      let done := !more || decide (0 < ctx.limit ∧ ctx.limit ≤ (d.count + 1 : Nat))
      (!done, { d with sink, count := d.count + 1, done })

def runListing (ctx : ListContext) (emit : Sink τ) : Listing σ → Delivery τ → σ × Delivery τ
  | .finish s, d     => (s, d)
  | .push r resume, d =>
    let (more, d) := deliver ctx emit d r
    runListing ctx emit (resume more) d

/-- All that comes before the listing: the listing to run and what to encode its results with. -/
def startListing (server : Server σ) (req : Wire.ListRequest) : Operation σ ((σ → Listing σ) × ListContext) := do
  let listResource ← found (server.registry.listResource req.typeName)
  let resource ← found (server.registry.resource req.typeName)
  let listSchema ← schemaOf listResource.schema
  let schema ← schemaOf resource.schema
  let identitySchema ← identitySchemaOf resource.identitySchema
  let config ← decode listSchema req.config "Config"
  return (listResource.list ⟨config, req.includeObject, req.limit⟩,
    ⟨req.includeObject, req.limit, schema, identitySchema⟩)

/-- Lists into a sink; the states of the provider and of the sink afterwards. -/
def listResource (server : Server σ) (emit : Sink τ) (req : Wire.ListRequest) (s : σ) (t : τ) : σ × τ :=
  match (startListing server req).run.run s with
  | (.error ds, s) => (s, ((emit { diagnostics := wire ds }).run t).2)
  | (.ok (listing, ctx), s) =>
    let (s, d) := runListing ctx emit (listing s) { sink := t }
    match d.failure with
    | some ds => (s, ((emit { diagnostics := wire ds }).run d.sink).2)
    | none    => (s, d.sink)

/-- All events, to a caller that always wants more. -/
def listResourceEvents (server : Server σ) (req : Wire.ListRequest) : StateM σ (List Wire.ListEvent) := fun s =>
  let (s, events) := server.listResource (fun event => do modify (· ++ [event]); pure true) req s []
  (events, s)

end ProviderProtocol.Server
