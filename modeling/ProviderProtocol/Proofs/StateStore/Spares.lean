import ProviderProtocol.Proofs.Server.Chunks
import ProviderProtocol.StateStore.Memory
/-!
# Requests that leave a cell alone

A handler spares a cell of the provider's state if it leaves what is in the cell as it is.  Only handlers touch the
state at all, so an operation spares a cell if the handlers that it calls do.  Each request to a state store asks this
of one or two handlers of the store, and nothing if no store has the name.
-/
namespace ProviderProtocol

variable {cell : Cell σ α}

def Handler.Spares (cell : Cell σ α) (h : Handler σ Request Response) : Prop :=
  ∀ req resp s, cell.get (h req resp s).2 = cell.get s

theorem Handler.spares_pass : Handler.Spares cell (Handler.pass : Handler σ Request Response) := fun _ _ _ => rfl

/-- No handler of the store touches the cell. -/
structure StateStore.Spares (cell : Cell σ α) (store : StateStore σ) : Prop where
  schema : store.schema.Spares cell
  validateConfig : store.validateConfig.Spares cell
  configure : store.configure.Spares cell
  states : store.states.Spares cell
  delete : store.delete.Spares cell
  lock : store.lock.Spares cell
  unlock : store.unlock.Spares cell
  readBytes : store.readBytes.Spares cell
  writeBytes : store.writeBytes.Spares cell

namespace Operation

def Spares (cell : Cell σ α) (op : Operation σ β) : Prop := ∀ s, cell.get (exec op s).2 = cell.get s

theorem spares_pure (b : β) : Spares cell (pure b : Operation σ β) := fun _ => rfl

theorem spares_halt (d : Diagnostic) : Spares cell (halt d : Operation σ β) := fun _ => rfl

theorem spares_bind {op : Operation σ β} {f : β → Operation σ γ} (h : Spares cell op) (hf : ∀ b, Spares cell (f b)) :
    Spares cell (op >>= f) := by
  intro s
  have hop := h s
  rw [exec_bind]
  cases hexec : exec op s with
  | mk ending s' =>
    rw [hexec] at hop
    cases ending with
    | ok b     => exact (hf b s').trans hop
    | error ds => exact hop

theorem spares_found_bind {e : Except Diagnostic β} {f : β → Operation σ γ} (hf : ∀ b, e = .ok b → Spares cell (f b)) :
    Spares cell (found e >>= f) := by
  cases e with
  | ok b    => exact hf b rfl
  | error d => exact fun _ => rfl

theorem spares_orHalt (summary : String) (e : Except ProviderError β) :
    Spares cell (orHalt summary e : Operation σ β) := by
  intro s
  rw [exec_orHalt]

theorem spares_check (ds : List Diagnostic) : Spares cell (check ds : Operation σ Unit) := by
  intro s
  rw [exec_check]

theorem spares_call {h : Handler σ Request Response} (hspares : h.Spares cell) (req : Request) (resp : Response) :
    Spares cell (call h req resp) := hspares req resp

theorem spares_schemaOf {h : Handler σ Unit SchemaResponse} (hspares : h.Spares cell) : Spares cell (schemaOf h) := by
  intro s
  rw [exec_schemaOf]
  exact hspares () {} s

theorem Spares.answer {op : Operation σ ρ} (h : Spares cell op) (halted : List WireDiagnostic → ρ) (s : σ) :
    cell.get ((answer halted op).run s).2 = cell.get s := by
  rw [run_answer]
  exact h s

end Operation

namespace Server

open Operation

variable (server : Server σ)

/-- Every store that has the name satisfies this. -/
def StoreNamed (name : String) (P : StateStore σ → Prop) : Prop :=
  ∀ store, server.registry.stateStore name = .ok store → P store

theorem spares_configFor {schema : Handler σ Unit SchemaResponse} (h : schema.Spares cell) (config : Option Payload) :
    Spares cell (configFor schema config) :=
  spares_bind (spares_schemaOf h) fun _ => spares_orHalt _ _

theorem validateStoreConfig_spares {req : Wire.ConfigRequest}
    (h : server.StoreNamed req.typeName fun store => store.schema.Spares cell ∧ store.validateConfig.Spares cell)
    (s : σ) : cell.get ((server.validateStoreConfig req).run s).2 = cell.get s := by
  refine Spares.answer (spares_found_bind fun store hstore => ?_) _ s
  obtain ⟨hschema, hvalidate⟩ := h store hstore
  exact spares_bind (spares_configFor hschema _) fun config => spares_bind (spares_call hvalidate _ _) fun _ =>
    spares_pure _

theorem configureStateStore_spares {req : Wire.ConfigureStoreRequest}
    (h : server.StoreNamed req.typeName fun store => store.schema.Spares cell ∧ store.configure.Spares cell)
    (s : σ) : cell.get ((server.configureStateStore req).run s).2 = cell.get s := by
  refine Spares.answer (spares_found_bind fun store hstore => ?_) _ s
  obtain ⟨hschema, hconfigure⟩ := h store hstore
  exact spares_bind (spares_configFor hschema _) fun config => spares_bind (spares_call hconfigure _ _) fun _ =>
    spares_bind (spares_check _) fun _ => spares_pure _

theorem getStates_spares {typeName : String}
    (h : server.StoreNamed typeName fun store => store.states.Spares cell) (s : σ) :
    cell.get ((server.getStates typeName).run s).2 = cell.get s := by
  refine Spares.answer (spares_found_bind fun store hstore => ?_) _ s
  exact spares_bind (spares_call (h store hstore) _ _) fun _ => spares_bind (spares_check _) fun _ => spares_pure _

theorem deleteState_spares {req : Wire.StateRequest}
    (h : server.StoreNamed req.typeName fun store => store.delete.Spares cell) (s : σ) :
    cell.get ((server.deleteState req).run s).2 = cell.get s := by
  refine Spares.answer (spares_found_bind fun store hstore => ?_) _ s
  exact spares_bind (spares_call (h store hstore) _ _) fun _ => spares_pure _

theorem lockState_spares {req : Wire.LockRequest}
    (h : server.StoreNamed req.typeName fun store => store.lock.Spares cell) (s : σ) :
    cell.get ((server.lockState req).run s).2 = cell.get s := by
  refine Spares.answer (spares_found_bind fun store hstore => ?_) _ s
  exact spares_bind (spares_call (h store hstore) _ _) fun _ => spares_bind (spares_check _) fun _ => spares_pure _

theorem unlockState_spares {req : Wire.UnlockRequest}
    (h : server.StoreNamed req.typeName fun store => store.unlock.Spares cell) (s : σ) :
    cell.get ((server.unlockState req).run s).2 = cell.get s := by
  refine Spares.answer (spares_found_bind fun store hstore => ?_) _ s
  exact spares_bind (spares_call (h store hstore) _ _) fun _ => spares_pure _

theorem readStateBytes_spares {req : Wire.StateRequest}
    (h : server.StoreNamed req.typeName fun store => store.readBytes.Spares cell) (s : σ) :
    cell.get ((server.readStateBytes req).run s).2 = cell.get s := by
  refine Spares.answer (spares_found_bind fun store hstore => ?_) _ s
  exact spares_bind (spares_call (h store hstore) _ _) fun _ => spares_bind (spares_check _) fun _ => spares_pure _

theorem writeStateBytes_spares {chunks : List Wire.UploadChunk}
    (h : ∀ target, TypedRequest.uploadTarget chunks = .ok target →
      server.StoreNamed target.typeName fun store => store.writeBytes.Spares cell) (s : σ) :
    cell.get ((server.writeStateBytes chunks).run s).2 = cell.get s := by
  cases htarget : TypedRequest.uploadTarget chunks with
  | error fault => rw [writeStateBytes_of_no_target htarget]
  | ok target =>
    rw [writeStateBytes_of_target htarget]
    refine Spares.answer (spares_found_bind fun store hstore => spares_bind ?_ fun bytes => ?_) _ s
    · cases received chunks with
      | ok bytes    => exact spares_pure bytes
      | error fault => exact spares_halt _
    · exact spares_bind (spares_call (h target htarget store hstore) _ _) fun _ => spares_pure _

end Server

end ProviderProtocol
