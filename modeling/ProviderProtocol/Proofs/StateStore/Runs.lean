import ProviderProtocol.Proofs.StateStore.Memory
import ProviderProtocol.Proofs.StateStore.Served
/-!
# Runs on a served memory

A server can have one memory registered under several names, beside stores that have nothing to do with it
(`ServedMemory`).  What its clients do is a list of actions: requests to the stores of the server, and states put into
the memory past the server.  A request reaches the memory in one call at most, so what clients do side by side is such a
list too, in the order of these calls.

An answer tells whether its request was accepted, and so which event the action adds to the history
(`ServedMemory.perform`).  Every action moves the memory by its event, and without one not at all
(`ServedMemory.perform_moves`).  So after every run the memory matches the history (`ServedMemory.run_matches`).
-/
namespace ProviderProtocol

/-- A server, the cell of a memory and the names that the memory is registered under. -/
structure ServedMemory (σ : Type) where
  server : Server σ
  cell : Cell σ Memory
  names : List String
  get_set : ∀ m s, cell.get (cell.set m s) = m
  registered : ∀ name ∈ names, ∃ schema, server.registry.stateStore name = .ok (Memory.store cell schema)
  /-- No other store touches the memory. -/
  apart : ∀ name, name ∉ names → server.StoreNamed name (StateStore.Spares cell)

inductive StoreAction
  | validateConfig (req : Wire.ConfigRequest)
  | configure (req : Wire.ConfigureStoreRequest)
  | getStates (typeName : String)
  | delete (req : Wire.StateRequest)
  | lock (req : Wire.LockRequest)
  | unlock (req : Wire.UnlockRequest)
  | read (req : Wire.StateRequest)
  | write (chunks : List Wire.UploadChunk)
  /-- Past the server. -/
  | put (id : String) (bytes : Bytes)

/-- The state that the action is about. -/
def StoreAction.stateId? : StoreAction → Option String
  | .validateConfig _ | .configure _ | .getStates _ => none
  | .delete req | .read req                         => some req.id
  | .lock req                                       => some req.id
  | .unlock req                                     => some req.id
  | .write chunks                                   =>
    (TypedRequest.uploadTarget chunks).toOption.map Wire.StateRequest.id
  | .put id _                                       => some id

namespace Memory

/-- The memory is moved by the event, and stays as it is without one. -/
def Moves (m : Memory) : Option StoreEvent → Memory → Prop
  | none, m'       => m' = m
  | some event, m' => m.Step event m'

theorem Matches.moves {m m' : Memory} {history : History} {event : Option StoreEvent} (h : m.Matches history)
    (hmoves : m.Moves event m') : m'.Matches (history ++ event.toList) := by
  cases event with
  | none =>
    obtain rfl : m' = m := hmoves
    rw [Option.toList_none, List.append_nil]
    exact h
  | some e => exact h.step hmoves

end Memory

namespace ServedMemory

variable (served : ServedMemory σ)

def memory (s : σ) : Memory := served.cell.get s

/-- The event that an answer tells of: none if it is not from the memory or reports an error. -/
def accepted (typeName : String) (reported : List WireDiagnostic) (event : StoreEvent) : Option StoreEvent :=
  if typeName ∈ served.names ∧ reportsError reported = false then some event else none

/-- Does an action; the result is the event that the answer tells of. -/
def perform : StoreAction → StateM σ (Option StoreEvent)
  | .validateConfig req => do
    let _ ← served.server.validateStoreConfig req
    return none
  | .configure req => do
    let resp ← served.server.configureStateStore req
    return served.accepted req.typeName resp.diagnostics (.configured (resp.chunkSize.getD 0))
  | .getStates typeName => do
    let _ ← served.server.getStates typeName
    return none
  | .delete req => do
    let resp ← served.server.deleteState req
    return served.accepted req.typeName resp.diagnostics (.deleted req.id)
  | .lock req => do
    let resp ← served.server.lockState req
    return served.accepted req.typeName resp.diagnostics (.locked req.id resp.lockId)
  | .unlock req => do
    let resp ← served.server.unlockState req
    return served.accepted req.typeName resp.diagnostics (.unlocked req.id req.lockId)
  | .read req => do
    let _ ← served.server.readStateBytes req
    return none
  | .write chunks => do
    let resp ← served.server.writeStateBytes chunks
    return (TypedRequest.uploadTarget chunks).toOption.bind fun target =>
      served.accepted target.typeName resp.diagnostics
        (.stored target.id (chunks.flatMap Wire.UploadChunk.bytes))
  | .put id bytes => do
    modify fun s => served.cell.set ((served.memory s).put id bytes) s
    return some (.stored id bytes)

/-- Does the actions one after the other; the result is the history. -/
def run : List StoreAction → StateM σ History
  | []             => return []
  | action :: rest => do
    let event ← served.perform action
    let later ← run rest
    return event.toList ++ later

/-! ## One action -/

@[simp] theorem memory_set (m : Memory) (s : σ) : served.memory (served.cell.set m s) = m := served.get_set m s

variable {served} {s s' : σ}

theorem accepted_eq_some {typeName : String} {reported : List WireDiagnostic} {event e : StoreEvent}
    (h : served.accepted typeName reported event = some e) : event = e := by
  unfold accepted at h
  split at h
  · exact Option.some.inj h
  · cases h

theorem event_stateId {action : StoreAction} {e : StoreEvent} (h : ((served.perform action).run s).1 = some e) :
    e.stateId? = action.stateId? := by
  cases action with
  | validateConfig req => cases h
  | configure req => rw [← accepted_eq_some h]; rfl
  | getStates typeName => cases h
  | delete req => rw [← accepted_eq_some h]; rfl
  | lock req => rw [← accepted_eq_some h]; rfl
  | unlock req => rw [← accepted_eq_some h]; rfl
  | read req => cases h
  | write chunks =>
    obtain ⟨target, htarget, he⟩ := Option.bind_eq_some_iff.1 h
    rw [← accepted_eq_some he, StoreAction.stateId?, htarget]
    rfl
  | put id bytes =>
    cases h
    rfl

/-- An answer from another store comes with an unchanged memory; one from the memory reports an error or tells of what
happened to it. -/
theorem moves_of_answer {op : StateM σ ρ} {resp : ρ} {typeName : String} {reported : List WireDiagnostic}
    {e : StoreEvent} (hrun : op.run s = (resp, s'))
    (hother : typeName ∉ served.names → served.memory (op.run s).2 = served.memory s)
    (hown : typeName ∈ served.names →
      reportsError reported = false ∧ (served.memory s).Step e (served.memory s') ∨
        reportsError reported = true ∧ s' = s) :
    (served.memory s).Moves (served.accepted typeName reported e) (served.memory s') := by
  rw [hrun] at hother
  unfold accepted
  by_cases hname : typeName ∈ served.names
  · rcases hown hname with ⟨hok, step⟩ | ⟨herror, rfl⟩
    · rw [if_pos ⟨hname, hok⟩]
      exact step
    · rw [if_neg fun h => by rw [herror] at h; cases h.2]
      rfl
  · rw [if_neg fun h => hname h.1]
    exact hother hname

open Server

theorem configure_moves {req : Wire.ConfigureStoreRequest} {resp : Wire.ConfigureStoreResponse}
    (hrun : (served.server.configureStateStore req).run s = (resp, s')) :
    (served.memory s).Moves
      (served.accepted req.typeName resp.diagnostics (.configured (resp.chunkSize.getD 0))) (served.memory s') := by
  refine moves_of_answer hrun (fun hother => ?_) fun hown => ?_
  · refine configureStateStore_spares _ (fun store hstore => ?_) s
    have hspares := served.apart _ hother store hstore
    exact ⟨hspares.schema, hspares.configure⟩
  · obtain ⟨schema, h⟩ := served.registered _ hown
    rw [configureStateStore_store h] at hrun
    cases hconfig : Payload.decodeFor (some schema) req.config with
    | ok config =>
      rw [hconfig] at hrun
      cases hrun
      refine .inl ⟨rfl, ?_⟩
      rw [memory_set]
      exact .configured _
    | error e =>
      rw [hconfig] at hrun
      cases hrun
      exact .inr ⟨rfl, rfl⟩

theorem delete_moves {req : Wire.StateRequest} {resp : Wire.Report}
    (hrun : (served.server.deleteState req).run s = (resp, s')) :
    (served.memory s).Moves (served.accepted req.typeName resp.diagnostics (.deleted req.id)) (served.memory s') := by
  refine moves_of_answer hrun (fun hother => ?_) fun hown => ?_
  · exact deleteState_spares _ (fun store hstore => (served.apart _ hother store hstore).delete) s
  · obtain ⟨schema, h⟩ := served.registered _ hown
    rw [deleteState_store h, ← memory] at hrun
    cases hdelete : (served.memory s).delete req.id with
    | ok m =>
      rw [hdelete] at hrun
      cases hrun
      refine .inl ⟨rfl, ?_⟩
      rw [memory_set]
      exact .of_delete hdelete
    | error fault =>
      rw [hdelete] at hrun
      cases hrun
      exact .inr ⟨fault.reportsError_diagnostic [], rfl⟩

theorem lock_moves {req : Wire.LockRequest} {resp : Wire.LockResponse}
    (hrun : (served.server.lockState req).run s = (resp, s')) :
    (served.memory s).Moves (served.accepted req.typeName resp.diagnostics (.locked req.id resp.lockId))
      (served.memory s') := by
  refine moves_of_answer hrun (fun hother => ?_) fun hown => ?_
  · exact lockState_spares _ (fun store hstore => (served.apart _ hother store hstore).lock) s
  · obtain ⟨schema, h⟩ := served.registered _ hown
    rw [lockState_store h, ← memory] at hrun
    cases hlock : (served.memory s).lock req.id req.operation with
    | ok r =>
      rw [hlock] at hrun
      cases hrun
      refine .inl ⟨rfl, ?_⟩
      rw [memory_set]
      exact .of_lock hlock
    | error fault =>
      rw [hlock] at hrun
      cases hrun
      exact .inr ⟨fault.reportsError_diagnostic [], rfl⟩

theorem unlock_moves {req : Wire.UnlockRequest} {resp : Wire.Report}
    (hrun : (served.server.unlockState req).run s = (resp, s')) :
    (served.memory s).Moves (served.accepted req.typeName resp.diagnostics (.unlocked req.id req.lockId))
      (served.memory s') := by
  refine moves_of_answer hrun (fun hother => ?_) fun hown => ?_
  · exact unlockState_spares _ (fun store hstore => (served.apart _ hother store hstore).unlock) s
  · obtain ⟨schema, h⟩ := served.registered _ hown
    rw [unlockState_store h, ← memory] at hrun
    cases hunlock : (served.memory s).unlock req.id req.lockId with
    | ok m =>
      rw [hunlock] at hrun
      cases hrun
      refine .inl ⟨rfl, ?_⟩
      rw [memory_set]
      exact .of_unlock hunlock
    | error fault =>
      rw [hunlock] at hrun
      cases hrun
      exact .inr ⟨fault.reportsError_diagnostic [], rfl⟩

theorem write_moves {chunks : List Wire.UploadChunk} {target : Wire.StateRequest} {resp : Wire.Report}
    (htarget : TypedRequest.uploadTarget chunks = .ok target)
    (hrun : (served.server.writeStateBytes chunks).run s = (resp, s')) :
    (served.memory s).Moves (served.accepted target.typeName resp.diagnostics
      (.stored target.id (chunks.flatMap Wire.UploadChunk.bytes))) (served.memory s') := by
  refine moves_of_answer hrun (fun hother => ?_) fun hown => ?_
  · refine writeStateBytes_spares _ (fun named hnamed store hstore => ?_) s
    rw [htarget] at hnamed
    cases hnamed
    exact (served.apart _ hother store hstore).writeBytes
  · obtain ⟨schema, h⟩ := served.registered _ hown
    rw [writeStateBytes_store htarget h] at hrun
    cases hreceived : received chunks with
    | ok bytes =>
      rw [hreceived] at hrun
      cases hrun
      refine .inl ⟨?_, ?_⟩
      · -- a warning at most
        split
        · rfl
        · rfl
      · rw [memory_set, ← received_eq_ok hreceived]
        exact .stored target.id bytes
    | error fault =>
      rw [hreceived] at hrun
      cases hrun
      exact .inr ⟨fault.reportsError_diagnostic, rfl⟩

/-- The requests that only look at a store leave the memory as it is, whichever store that is. -/
theorem reading_spares (name : String) : served.server.StoreNamed name fun store =>
    store.schema.Spares served.cell ∧ store.validateConfig.Spares served.cell ∧ store.states.Spares served.cell ∧
      store.readBytes.Spares served.cell := by
  intro store hstore
  by_cases hname : name ∈ served.names
  · obtain ⟨schema, h⟩ := served.registered name hname
    rw [h] at hstore
    cases hstore
    exact ⟨fun _ _ _ => rfl, Handler.spares_pass, fun _ _ _ => rfl, fun _ _ _ => rfl⟩
  · have hspares := served.apart name hname store hstore
    exact ⟨hspares.schema, hspares.validateConfig, hspares.states, hspares.readBytes⟩

/-- **Every action moves the memory by the event that its answer tells of**, and without one not at all. -/
theorem perform_moves (served : ServedMemory σ) (action : StoreAction) (s : σ) :
    (served.memory s).Moves ((served.perform action).run s).1 (served.memory ((served.perform action).run s).2) := by
  cases action with
  | validateConfig req =>
    refine validateStoreConfig_spares _ (fun store hstore => ?_) s
    obtain ⟨hschema, hvalidate, -, -⟩ := reading_spares _ store hstore
    exact ⟨hschema, hvalidate⟩
  | configure req => exact configure_moves rfl
  | getStates name =>
    refine getStates_spares _ (fun store hstore => ?_) s
    obtain ⟨-, -, hstates, -⟩ := reading_spares _ store hstore
    exact hstates
  | delete req => exact delete_moves rfl
  | lock req   => exact lock_moves rfl
  | unlock req => exact unlock_moves rfl
  | read req =>
    refine readStateBytes_spares _ (fun store hstore => ?_) s
    obtain ⟨-, -, -, hread⟩ := reading_spares _ store hstore
    exact hread
  | write chunks =>
    show (served.memory s).Moves ((TypedRequest.uploadTarget chunks).toOption.bind _)
      (served.memory ((served.server.writeStateBytes chunks).run s).2)
    cases htarget : TypedRequest.uploadTarget chunks with
    | ok target => exact write_moves htarget rfl
    | error fault =>
      rw [writeStateBytes_of_no_target htarget]
      rfl
  | put id bytes =>
    show (served.memory s).Step (.stored id bytes) (served.memory (served.cell.set _ s))
    rw [memory_set]
    exact .stored id bytes

/-! ## Runs -/

/-- **After a run the memory is what the history makes of it.** -/
theorem run_matches {history : History} (actions : List StoreAction) (s : σ)
    (h : (served.memory s).Matches history) :
    (served.memory ((served.run actions).run s).2).Matches (history ++ ((served.run actions).run s).1) := by
  induction actions generalizing history s with
  | nil =>
    show (served.memory s).Matches (history ++ [])
    rw [List.append_nil]
    exact h
  | cons action rest ih =>
    have hfirst := h.moves (perform_moves served action s)
    have hrest := ih ((served.perform action).run s).2 hfirst
    rw [List.append_assoc] at hrest
    exact hrest

/-- Whatever the clients of an empty memory do, the memory matches the history. -/
theorem matches_of_run {s₀ : σ} {actions : List StoreAction} {history : History} (hempty : served.memory s₀ = {})
    (hrun : (served.run actions).run s₀ = (history, s)) : (served.memory s).Matches history := by
  have hstart : (served.memory s₀).Matches [] := hempty ▸ Memory.Matches.empty
  have h := run_matches actions s₀ hstart
  rw [hrun] at h
  exact h

/-! ### A vault

A memory with two names, and beside it another one for archives. -/

def vaultCell : Cell (Memory × Memory) Memory := ⟨Prod.fst, fun m s => (m, s.2)⟩

def archiveCell : Cell (Memory × Memory) Memory := ⟨Prod.snd, fun m s => (s.1, m)⟩

def vaultServer : Server (Memory × Memory) where
  registry := {
    provider := {}
    stateStores := [("archive", Memory.store archiveCell (.new 0)), ("mirror", Memory.store vaultCell (.new 0)),
      ("vault", Memory.store vaultCell (.new 0))] }

def vault : ServedMemory (Memory × Memory) where
  server := vaultServer
  cell := vaultCell
  names := ["mirror", "vault"]
  get_set _ _ := rfl
  registered := by
    intro name hname
    refine ⟨.new 0, ?_⟩
    rcases List.mem_pair.1 hname with rfl | rfl
    · rfl
    · rfl
  apart := by
    intro name hname store hstore
    rw [Registry.stateStore, Registry.lookUp] at hstore
    cases hfind : Table.find? name vaultServer.registry.stateStores with
    | none => rw [hfind] at hstore; cases hstore
    | some found =>
      rw [hfind] at hstore
      cases hstore
      have hentry := Table.mem_of_find? hfind
      rcases List.mem_cons.1 hentry with harchive | hown
      · cases harchive
        exact Memory.store_spares vaultCell (fun _ _ => rfl) _
      · exact absurd (Table.mem_names hown) hname

end ServedMemory

end ProviderProtocol
