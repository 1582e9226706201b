import ProviderProtocol.Proofs.Server.Chunks
import ProviderProtocol.Proofs.Server.Errors
import ProviderProtocol.Proofs.StateStore.Spares
/-!
# A memory behind a server

What the handlers of a memory do to its cell, and what a server answers to each request for a store that is a memory.
A change that fails is answered by its fault and leaves the state as it was.
-/
namespace ProviderProtocol

open Operation

/-! ## Handlers of a memory -/

namespace Memory

variable (cell : Cell σ Memory)

theorem Fault.reportsError_diagnostic (fault : Fault) (ds : List WireDiagnostic) :
    reportsError (fault.diagnostic.toWire :: ds) = true := by
  cases fault <;> rfl

/-- A report of a fault is no acceptance. -/
theorem Fault.refused (fault : Fault) {P : Prop} (h : ¬P) : reportsError [fault.diagnostic.toWire] = false ↔ P := by
  rw [fault.reportsError_diagnostic]
  constructor
  · intro hok; cases hok
  · intro hp; exact absurd hp h

theorem run_change (f : Memory → Except Fault Memory) (s : σ) :
    (change cell f).run s = match f (cell.get s) with
      | .ok m    => ([], cell.set m s)
      | .error e => ([e.diagnostic], s) := by
  show (match f (cell.get s) with
    | .ok m    => (do modify (cell.set m); pure [] : StateM σ (List Diagnostic))
    | .error e => pure [e.diagnostic]).run s = _
  cases f (cell.get s) with
  | ok m    => rfl
  | error e => rfl

variable {schema : Schema}

theorem store_delete (id : String) (ds : List Diagnostic) (s : σ) :
    (store cell schema).delete id ds s = match (cell.get s).delete id with
      | .ok m    => (ds, cell.set m s)
      | .error e => (ds ++ [e.diagnostic], s) := by
  show (ds ++ ((change cell (·.delete id)).run s).1, ((change cell (·.delete id)).run s).2) = _
  rw [run_change]
  cases (cell.get s).delete id with
  | ok m    => exact Prod.ext (List.append_nil ds) rfl
  | error e => rfl

theorem store_lock (req : LockRequest) (resp : LockResponse) (s : σ) :
    (store cell schema).lock req resp s = match (cell.get s).lock req.id req.operation with
      | .ok (new, m) => ({ resp with lockId := new }, cell.set m s)
      | .error e     => ({ resp with diagnostics := resp.diagnostics ++ [e.diagnostic] }, s) := by
  show (match (cell.get s).lock req.id req.operation with
    | .ok (new, m) => (do modify (cell.set m); pure { resp with lockId := new } : StateM σ LockResponse)
    | .error e     => pure { resp with diagnostics := resp.diagnostics ++ [e.diagnostic] }).run s = _
  cases (cell.get s).lock req.id req.operation with
  | ok r    => rfl
  | error e => rfl

theorem store_unlock (req : UnlockRequest) (ds : List Diagnostic) (s : σ) :
    (store cell schema).unlock req ds s = match (cell.get s).unlock req.id req.lockId with
      | .ok m    => (ds, cell.set m s)
      | .error e => (ds ++ [e.diagnostic], s) := by
  show (ds ++ ((change cell (·.unlock req.id req.lockId)).run s).1,
    ((change cell (·.unlock req.id req.lockId)).run s).2) = _
  rw [run_change]
  cases (cell.get s).unlock req.id req.lockId with
  | ok m    => exact Prod.ext (List.append_nil ds) rfl
  | error e => rfl

/-- A memory in another cell has nothing to do with this one. -/
theorem store_spares {other : Cell σ Memory} (h : ∀ m s, cell.get (other.set m s) = cell.get s) (schema : Schema) :
    (store other schema).Spares cell where
  schema _ _ _ := rfl
  validateConfig := Handler.spares_pass
  configure _ _ s := h _ s
  states _ _ _ := rfl
  delete id ds s := by
    rw [store_delete]
    cases (other.get s).delete id with
    | ok m    => exact h m s
    | error e => rfl
  lock req resp s := by
    rw [store_lock]
    cases (other.get s).lock req.id req.operation with
    | ok r    => exact h r.2 s
    | error e => rfl
  unlock req ds s := by
    rw [store_unlock]
    cases (other.get s).unlock req.id req.lockId with
    | ok m    => exact h m s
    | error e => rfl
  readBytes _ _ _ := rfl
  writeBytes _ _ s := h _ s

end Memory

/-! ## Requests to a memory -/

namespace Server

variable {server : Server σ} {cell : Cell σ Memory} {schema : Schema}

theorem configureStateStore_store {req : Wire.ConfigureStoreRequest}
    (h : server.registry.stateStore req.typeName = .ok (Memory.store cell schema)) (s : σ) :
    (server.configureStateStore req).run s = match Payload.decodeFor (some schema) req.config with
      | .ok _    =>
        let size := if 0 < req.chunkSize.getD 0 then req.chunkSize.getD 0 else server.options.chunkSize
        (⟨some size, []⟩, cell.set { cell.get s with chunkSize := size } s)
      | .error e => (⟨none, [(Diagnostic.ofError "Error Decoding Config" e).toWire]⟩, s) := by
  refine (run_answer_found h _ s).trans ?_
  have hconfig : exec (configFor (Memory.store cell schema).schema req.config) s =
      ((Payload.decodeFor (some schema) req.config).mapError
        fun why => [.ofError "Error Decoding Config" why], s) :=
    exec_orHalt "Error Decoding Config" (Payload.decodeFor (some schema) req.config) s
  rw [run_answer, exec_bind, hconfig]
  cases Payload.decodeFor (some schema) req.config with
  | ok config => rfl
  | error e   => rfl

theorem getStates_store {typeName : String} (h : server.registry.stateStore typeName = .ok (Memory.store cell schema))
    (s : σ) : (server.getStates typeName).run s = (⟨Table.names (cell.get s).states, []⟩, s) :=
  run_answer_found h _ s

theorem deleteState_store {req : Wire.StateRequest}
    (h : server.registry.stateStore req.typeName = .ok (Memory.store cell schema)) (s : σ) :
    (server.deleteState req).run s = match (cell.get s).delete req.id with
      | .ok m    => (⟨[]⟩, cell.set m s)
      | .error e => (⟨[e.diagnostic.toWire]⟩, s) := by
  refine (run_answer_found h _ s).trans ((run_answer_call _ _ _ _ s).trans ?_)
  rw [Memory.store_delete]
  cases (cell.get s).delete req.id with
  | ok m    => rfl
  | error e => rfl

theorem lockState_store {req : Wire.LockRequest}
    (h : server.registry.stateStore req.typeName = .ok (Memory.store cell schema)) (s : σ) :
    (server.lockState req).run s = match (cell.get s).lock req.id req.operation with
      | .ok (new, m) => (⟨new, []⟩, cell.set m s)
      | .error e     => (⟨"", [e.diagnostic.toWire]⟩, s) := by
  refine (run_answer_found h _ s).trans ((run_answer_call _ _ _ _ s).trans ?_)
  rw [Memory.store_lock]
  cases (cell.get s).lock req.id req.operation with
  | ok r    => rfl
  | error e => cases e <;> rfl

theorem unlockState_store {req : Wire.UnlockRequest}
    (h : server.registry.stateStore req.typeName = .ok (Memory.store cell schema)) (s : σ) :
    (server.unlockState req).run s = match (cell.get s).unlock req.id req.lockId with
      | .ok m    => (⟨[]⟩, cell.set m s)
      | .error e => (⟨[e.diagnostic.toWire]⟩, s) := by
  refine (run_answer_found h _ s).trans ((run_answer_call _ _ _ _ s).trans ?_)
  rw [Memory.store_unlock]
  cases (cell.get s).unlock req.id req.lockId with
  | ok m    => rfl
  | error e => rfl

/-- The chunk size in force is the one that the memory has, if it has one. -/
theorem readStateBytes_store {req : Wire.StateRequest}
    (h : server.registry.stateStore req.typeName = .ok (Memory.store cell schema)) (s : σ) :
    (server.readStateBytes req).run s =
      (chunkState (((cell.get s).state? req.id).getD [])
        (if 0 < (cell.get s).chunkSize then (cell.get s).chunkSize else server.options.chunkSize).toNat [], s) := by
  refine (run_answer_found h _ s).trans ((run_answer_call _ _ _ _ s).trans ?_)
  generalize hsize : (if 0 < (cell.get s).chunkSize then (cell.get s).chunkSize else server.options.chunkSize) = size
  have hchosen : (if 0 < size then size else server.options.chunkSize) = size := by
    split at hsize
    · rw [if_pos (hsize ▸ ‹0 < (cell.get s).chunkSize›)]
    · rw [hsize, ite_self]
  show (chunkState (((cell.get s).state? req.id).getD [])
    (if 0 < (if 0 < (cell.get s).chunkSize then (cell.get s).chunkSize else server.options.chunkSize)
      then (if 0 < (cell.get s).chunkSize then (cell.get s).chunkSize else server.options.chunkSize)
      else server.options.chunkSize).toNat [], s) = _
  rw [hsize, hchosen]

theorem writeStateBytes_store {chunks : List Wire.UploadChunk} {target : Wire.StateRequest}
    (htarget : TypedRequest.uploadTarget chunks = .ok target)
    (h : server.registry.stateStore target.typeName = .ok (Memory.store cell schema)) (s : σ) :
    (server.writeStateBytes chunks).run s = match received chunks with
      | .ok bytes    =>
        (⟨if ((cell.get s).lock? target.id).isSome then [(Memory.writtenWhileLocked target.id).toWire] else []⟩,
          cell.set ((cell.get s).put target.id bytes) s)
      | .error fault => (⟨[fault.diagnostic.toWire]⟩, s) := by
  rw [writeStateBytes_of_target htarget]
  refine (run_answer_found h _ s).trans ?_
  cases received chunks with
  | error fault => rfl
  | ok bytes =>
    rw [uploaded_ok_bind, run_answer_call]
    show ((⟨wire (if ((cell.get s).lock? target.id).isSome then [Memory.writtenWhileLocked target.id] else [])⟩ :
      Wire.Report), _) = _
    cases ((cell.get s).lock? target.id).isSome with
    | true  => rfl
    | false => rfl

end Server

end ProviderProtocol
