import ProviderProtocol.Proofs.Server.Download
import ProviderProtocol.Proofs.Server.Sparing
import ProviderProtocol.Proofs.StateStore.Runs
/-!
# The negotiated chunk size

A client asks for a size when it configures a store, the server falls back on its own, the memory keeps what it is told,
and each download takes the size from the memory or else from the server.  In any run of requests the size in force is
the last one that was reported (`inForce`), and downloads are cut to it (`negotiated_size_governs`).

An action reports a size if it is a configuration of the memory that is accepted.  Each action moves the kept size to
the one that it reports, and without one not at all (`perform_governed`); so does a run (`run_governed`).
-/
namespace ProviderProtocol

open Server

/-! ## The kept size -/

namespace Memory

/-- The size that a memory keeps, as a cell of its own. -/
def sizeCell (cell : Cell σ Memory) : Cell σ Int :=
  ⟨fun s => (cell.get s).chunkSize, fun size s => cell.set { cell.get s with chunkSize := size } s⟩

/-- What spares a memory spares the size that it keeps. -/
theorem handler_spares_size {cell : Cell σ Memory} {h : Handler σ Request Response} (hspares : h.Spares cell) :
    h.Spares (sizeCell cell) :=
  fun req resp s => congrArg chunkSize (hspares req resp s)

theorem spares_size {cell : Cell σ Memory} {store : StateStore σ} (h : StateStore.Spares cell store) :
    StateStore.Spares (sizeCell cell) store where
  schema := handler_spares_size h.schema
  validateConfig := handler_spares_size h.validateConfig
  configure := handler_spares_size h.configure
  states := handler_spares_size h.states
  delete := handler_spares_size h.delete
  lock := handler_spares_size h.lock
  unlock := handler_spares_size h.unlock
  readBytes := handler_spares_size h.readBytes
  writeBytes := handler_spares_size h.writeBytes

theorem delete_chunkSize {m m' : Memory} {id : String} (h : m.delete id = .ok m') : m'.chunkSize = m.chunkSize := by
  unfold delete at h
  split at h
  · cases h
  · split at h
    · cases h
    · cases h
      rfl

theorem lock_chunkSize {m m' : Memory} {id operation new : String} (h : m.lock id operation = .ok (new, m')) :
    m'.chunkSize = m.chunkSize := by
  unfold lock at h
  split at h
  · cases h
  · cases h
    rfl

theorem unlock_chunkSize {m m' : Memory} {id lockId : String} (h : m.unlock id lockId = .ok m') :
    m'.chunkSize = m.chunkSize := by
  unfold unlock at h
  split at h
  · cases h
  · split at h
    · cases h
      rfl
    · cases h

/-- A memory sets the size when it is configured, and at no other time. -/
theorem store_spares_size {cell : Cell σ Memory} (hcell : ∀ m s, cell.get (cell.set m s) = m) (schema : Schema) :
    StateStore.Spares (sizeCell cell) { store cell schema with configure := .pass } where
  schema _ _ _ := rfl
  validateConfig := Handler.spares_pass
  configure := Handler.spares_pass
  states _ _ _ := rfl
  delete id ds s := by
    show (cell.get ((store cell schema).delete id ds s).2).chunkSize = _
    rw [store_delete]
    cases hdelete : (cell.get s).delete id with
    | ok m    => exact (congrArg chunkSize (hcell m s)).trans (delete_chunkSize hdelete)
    | error e => rfl
  lock req resp s := by
    show (cell.get ((store cell schema).lock req resp s).2).chunkSize = _
    rw [store_lock]
    cases hlock : (cell.get s).lock req.id req.operation with
    | ok r    => exact (congrArg chunkSize (hcell r.2 s)).trans (lock_chunkSize hlock)
    | error e => rfl
  unlock req ds s := by
    show (cell.get ((store cell schema).unlock req ds s).2).chunkSize = _
    rw [store_unlock]
    cases hunlock : (cell.get s).unlock req.id req.lockId with
    | ok m    => exact (congrArg chunkSize (hcell m s)).trans (unlock_chunkSize hunlock)
    | error e => rfl
  readBytes _ _ _ := rfl
  writeBytes req _ s := by
    show (cell.get (cell.set ((cell.get s).put req.id req.bytes) s)).chunkSize = _
    rw [hcell]
    rfl

end Memory

/-- The registry without the stores of these names. -/
def Registry.without (names : List String) (r : Registry σ) : Registry σ :=
  { r with stateStores := r.stateStores.filter fun e => !names.contains e.1 }

/-- A server, the cell of a memory and the names that the memory is registered under.  What else is registered may share
the memory, but does not set the size. -/
structure SizedMemory (σ : Type) where
  server : Server σ
  cell : Cell σ Memory
  names : List String
  get_set : ∀ m s, cell.get (cell.set m s) = m
  registered : ∀ name ∈ names, name ∈ Table.names server.registry.stateStores
  own : ∀ e ∈ server.registry.stateStores, e.1 ∈ names → ∃ schema, e.2 = Memory.store cell schema
  apart : (server.registry.without names).Spares (Memory.sizeCell cell) []

/-- What happens to a server and a memory behind it. -/
inductive ServerAction (τ : Type)
  | provider (req : ProviderRequest)
  | typed (req : TypedRequest τ)
  /-- Past the server. -/
  | put (id : String) (bytes : Bytes)

/-- The size for a client: what it asks for, if that is positive, and else the server's. -/
def ServerOptions.sizeFor (o : ServerOptions) (req : Wire.ConfigureStoreRequest) : Int :=
  if 0 < req.chunkSize.getD 0 then req.chunkSize.getD 0 else o.chunkSize

theorem ServerOptions.sizeFor_pos (o : ServerOptions) (req : Wire.ConfigureStoreRequest) : 0 < o.sizeFor req := by
  unfold sizeFor
  split
  · assumption
  · exact o.chunkSize_pos

/-- The size in force after these were reported. -/
def ServerOptions.inForce (o : ServerOptions) (sizes : List Int) : Int := sizes.getLast?.getD o.chunkSize

namespace SizedMemory

variable (sized : SizedMemory σ)

def memory (s : σ) : Memory := sized.cell.get s

@[simp] theorem memory_set (m : Memory) (s : σ) : sized.memory (sized.cell.set m s) = m := sized.get_set m s

/-- The size that a configuration comes to: none if it is not the memory's or is answered by an error. -/
def negotiated (req : Wire.ConfigureStoreRequest) (resp : Wire.ConfigureStoreResponse) : Option Int :=
  if req.typeName ∈ sized.names ∧ reportsError resp.diagnostics = false then resp.chunkSize else none

/-- The size that an answer reports; only configurations do. -/
def reported : (req : TypedRequest τ) → req.Response → Option Int
  | .configureStateStore req, resp => sized.negotiated req resp
  | _, _                           => none

/-- Does an action; the result is the size that the answer reports. -/
def perform : ServerAction τ → StateM σ (Option Int)
  | .provider req => do
    let _ ← sized.server.serveProvider req
    return none
  | .typed req    => do
    let resp ← sized.server.serve req
    return sized.reported req resp
  | .put id bytes => do
    modify fun s => sized.cell.set ((sized.memory s).put id bytes) s
    return none

/-- Does the actions one after the other; the result is the sizes that were reported. -/
def run : List (ServerAction τ) → StateM σ (List Int)
  | []             => return []
  | action :: rest => do
    let size ← sized.perform action
    let later ← run rest
    return size.toList ++ later

variable {sized} {s s' : σ}

theorem store_eq {name : String} (hname : name ∈ sized.names) :
    ∃ schema, sized.server.registry.stateStore name = .ok (Memory.store sized.cell schema) := by
  cases hfind : Table.find? name sized.server.registry.stateStores with
  | none       => exact absurd (sized.registered name hname) (Table.find?_eq_none_iff.1 hfind)
  | some store =>
    obtain ⟨schema, rfl⟩ := sized.own _ (Table.mem_of_find? hfind) hname
    refine ⟨schema, ?_⟩
    rw [Registry.stateStore, Registry.lookUp, hfind]

theorem mem_without {e : String × StateStore σ} (he : e ∈ sized.server.registry.stateStores)
    (hname : e.1 ∉ sized.names) : e ∈ (sized.server.registry.without sized.names).stateStores :=
  List.mem_filter.2 ⟨he, by simpa using hname⟩

/-- Nothing sets the size but configuring the memory. -/
theorem registry_spares (sized : SizedMemory σ) :
    sized.server.registry.Spares (Memory.sizeCell sized.cell) sized.names where
  provider := sized.apart.provider
  resources := sized.apart.resources
  dataSources := sized.apart.dataSources
  listResources := sized.apart.listResources
  stateStores e he := by
    by_cases hname : e.1 ∈ sized.names
    · obtain ⟨schema, hstore⟩ := sized.own e he hname
      rw [hstore]
      exact Memory.store_spares_size sized.get_set schema
    · exact sized.apart.stateStores e (mem_without he hname)
  configure e he hname := sized.apart.configure e (mem_without he hname) List.not_mem_nil

/-! ## One action -/

/-- The last size that was reported is kept, or none if there is none; all of them are positive. -/
structure Governed (sized : SizedMemory σ) (sizes : List Int) (s : σ) : Prop where
  positive : ∀ n ∈ sizes, 0 < n
  kept : (sized.memory s).chunkSize = sizes.getLast?.getD 0

/-- What comes of configuring the memory: a size is reported and kept, or an error is and nothing has changed. -/
theorem configureStateStore_ends {req : Wire.ConfigureStoreRequest} {resp : Wire.ConfigureStoreResponse}
    (hname : req.typeName ∈ sized.names) (hrun : (sized.server.configureStateStore req).run s = (resp, s')) :
    resp = ⟨some (sized.server.options.sizeFor req), []⟩ ∧
        (sized.memory s').chunkSize = sized.server.options.sizeFor req ∨
      reportsError resp.diagnostics = true ∧ s' = s := by
  obtain ⟨schema, hstore⟩ := store_eq hname
  rw [configureStateStore_store hstore] at hrun
  cases hconfig : Payload.decodeFor (some schema) req.config with
  | ok config =>
    rw [hconfig] at hrun
    cases hrun
    refine .inl ⟨rfl, ?_⟩
    rw [memory_set]
    rfl
  | error e   =>
    rw [hconfig] at hrun
    cases hrun
    exact .inr ⟨rfl, rfl⟩

theorem Governed.same {sizes : List Int} (h : sized.Governed sizes s)
    (hsize : (sized.memory s').chunkSize = (sized.memory s).chunkSize) : sized.Governed (sizes ++ []) s' := by
  rw [List.append_nil]
  exact ⟨h.positive, hsize.trans h.kept⟩

theorem Governed.configured {sizes : List Int} (h : sized.Governed sizes s) {req : Wire.ConfigureStoreRequest}
    {resp : Wire.ConfigureStoreResponse} (hname : req.typeName ∈ sized.names)
    (hrun : (sized.server.configureStateStore req).run s = (resp, s')) :
    sized.Governed (sizes ++ (sized.negotiated req resp).toList) s' := by
  unfold negotiated
  rcases configureStateStore_ends hname hrun with ⟨rfl, hkept⟩ | ⟨herror, rfl⟩
  · rw [if_pos ⟨hname, rfl⟩]
    refine ⟨fun n hn => ?_, ?_⟩
    · rcases List.mem_append.1 hn with hn | hn
      · exact h.positive n hn
      · rw [List.mem_singleton.1 hn]
        exact ServerOptions.sizeFor_pos _ req
    · rw [hkept, Option.toList_some, List.getLast?_concat]
      rfl
  · rw [if_neg fun hok => by rw [herror] at hok; cases hok.2]
    exact h.same rfl

/-- **Every action moves the kept size to the one that it reports**, and without one not at all. -/
theorem perform_governed {sizes : List Int} (h : sized.Governed sizes s) (action : ServerAction τ) :
    sized.Governed (sizes ++ ((sized.perform action).run s).1.toList) ((sized.perform action).run s).2 := by
  have hspares := registry_spares sized
  cases action with
  | provider req => exact h.same (serveProvider_keeps hspares req s)
  | put id bytes =>
    refine h.same ?_
    show (sized.memory (sized.cell.set _ s)).chunkSize = _
    rw [memory_set]
    rfl
  | typed req    =>
    by_cases hreq : req.Configures sized.names
    · cases req with
      | configureStateStore req => exact h.configured hreq rfl
      | _                       => cases hreq
    · have hnone : ∀ resp, sized.reported req resp = none := by
        intro resp
        cases req with
        | configureStateStore req => exact if_neg fun hok => hreq hok.1
        | _                       => rfl
      show sized.Governed (sizes ++ (sized.reported req ((sized.server.serve req).run s).1).toList)
        ((sized.server.serve req).run s).2
      rw [hnone]
      exact h.same (serve_keeps hspares req hreq s)

/-! ## Runs -/

/-- **After a run the memory keeps the last size that was reported.** -/
theorem run_governed {sizes : List Int} (actions : List (ServerAction τ)) (s : σ) (h : sized.Governed sizes s) :
    sized.Governed (sizes ++ ((sized.run actions).run s).1) ((sized.run actions).run s).2 := by
  induction actions generalizing sizes s with
  | nil =>
    show sized.Governed (sizes ++ []) s
    exact h.same rfl
  | cons action rest ih =>
    have hrest := ih ((sized.perform action).run s).2 (perform_governed h action)
    rw [List.append_assoc] at hrest
    exact hrest

/-- Downloads from the memory are cut to this size. -/
def CutInto (sized : SizedMemory σ) (size : Int) (s : σ) : Prop :=
  ∀ req : Wire.StateRequest, req.typeName ∈ sized.names →
    Partition (((sized.memory s).state? req.id).getD []) size.toNat [] ((sized.server.readStateBytes req).run s).1

theorem Governed.cutInto {sizes : List Int} (h : sized.Governed sizes s) :
    0 < sized.server.options.inForce sizes ∧ sized.CutInto (sized.server.options.inForce sizes) s := by
  have hsize : (if 0 < (sized.memory s).chunkSize then (sized.memory s).chunkSize else sized.server.options.chunkSize) =
      sized.server.options.inForce sizes := by
    rw [h.kept, ServerOptions.inForce]
    cases hlast : sizes.getLast? with
    | none   => rfl
    | some n => exact if_pos (h.positive n (List.mem_of_getLast? hlast))
  have hpos : 0 < sized.server.options.inForce sizes := by
    rw [← hsize]
    split
    · assumption
    · exact ServerOptions.chunkSize_pos _
  refine ⟨hpos, fun req hname => ?_⟩
  obtain ⟨schema, hstore⟩ := store_eq hname
  rw [readStateBytes_store hstore, ← memory, hsize]
  exact chunkState_partition _ (by omega) []

/-- What a state is known of in which these sizes have been reported. -/
structure SizeGoverns (sized : SizedMemory σ) (sizes : List Int) (s : σ) : Prop where
  positive : ∀ n ∈ sizes, 0 < n
  /-- Downloads are cut to the last size, or to the server's before there is one. -/
  read : sized.CutInto (sized.server.options.inForce sizes) s
  /-- A configuration that is accepted reports the client's size or else the server's, and downloads are cut to it. -/
  configured : ∀ (req : Wire.ConfigureStoreRequest) (resp : Wire.ConfigureStoreResponse) (s' : σ),
    req.typeName ∈ sized.names → (sized.server.configureStateStore req).run s = (resp, s') →
    reportsError resp.diagnostics = false →
    resp.chunkSize = some (sized.server.options.sizeFor req) ∧ 0 < sized.server.options.sizeFor req ∧
      sized.CutInto (sized.server.options.sizeFor req) s'
  /-- Whatever reports no size, as a request that fails, leaves the size in force as it is. -/
  unchanged : ∀ {τ : Type} (action : ServerAction τ), ((sized.perform action).run s).1 = none →
    sized.CutInto (sized.server.options.inForce sizes) ((sized.perform action).run s).2

theorem Governed.sizeGoverns {sizes : List Int} (h : sized.Governed sizes s) : sized.SizeGoverns sizes s where
  positive := h.positive
  read := h.cutInto.2
  configured req resp s' hname hrun hok := by
    rcases configureStateStore_ends hname hrun with ⟨rfl, hkept⟩ | ⟨herror, -⟩
    · have hlast : sized.Governed [sized.server.options.sizeFor req] s' :=
        ⟨fun n hn => List.mem_singleton.1 hn ▸ ServerOptions.sizeFor_pos _ req, hkept⟩
      exact ⟨rfl, ServerOptions.sizeFor_pos _ req, hlast.cutInto.2⟩
    · rw [herror] at hok
      cases hok
  unchanged action hnone := by
    have hafter := perform_governed h action
    rw [hnone, Option.toList_none, List.append_nil] at hafter
    exact hafter.cutInto.2

/-- **The negotiated size governs every later download**, in every run on a memory that was not configured yet. -/
theorem negotiated_size_governs {s₀ s : σ} {actions : List (ServerAction τ)} {sizes : List Int}
    (hfresh : (sized.memory s₀).chunkSize = 0) (hrun : (sized.run actions).run s₀ = (sizes, s)) :
    sized.SizeGoverns sizes s := by
  have hstart : sized.Governed [] s₀ := ⟨List.forall_mem_nil _, hfresh⟩
  have hend := run_governed actions s₀ hstart
  rw [hrun] at hend
  exact hend.sizeGoverns

/-! ### A vault

The vault is configured under one of its names; configurations that cannot be read, or are another memory's, do not
count. -/

open ServedMemory (vaultServer vaultCell)

theorem archive_spares_size :
    StateStore.Spares (Memory.sizeCell vaultCell) (Memory.store ServedMemory.archiveCell (.new 0)) :=
  Memory.spares_size (Memory.store_spares vaultCell (fun _ _ => rfl) _)

theorem vault_get_set (m : Memory) (s : Memory × Memory) : vaultCell.get (vaultCell.set m s) = m := rfl

theorem vault_registered :
    ∀ name ∈ ["mirror", "vault"], name ∈ Table.names vaultServer.registry.stateStores := by decide

theorem vault_own : ∀ e ∈ vaultServer.registry.stateStores, e.1 ∈ ["mirror", "vault"] →
    ∃ schema, e.2 = Memory.store vaultCell schema := by
  intro e he hname
  rcases List.mem_cons.1 he with rfl | he
  · exact absurd hname (by decide)
  · refine ⟨.new 0, ?_⟩
    rcases List.mem_pair.1 he with rfl | rfl
    · rfl
    · rfl

theorem vault_apart :
    (vaultServer.registry.without ["mirror", "vault"]).Spares (Memory.sizeCell vaultCell) [] where
  provider := ⟨Handler.spares_pass, Handler.spares_pass, Handler.spares_pass, Handler.spares_pass⟩
  resources := List.forall_mem_nil _
  dataSources := List.forall_mem_nil _
  listResources := List.forall_mem_nil _
  stateStores := List.forall_mem_singleton.2 { archive_spares_size with configure := Handler.spares_pass }
  configure := List.forall_mem_singleton.2 fun _ => archive_spares_size.configure

def sizedVault : SizedMemory (Memory × Memory) where
  server := vaultServer
  cell := vaultCell
  names := ["mirror", "vault"]
  get_set := vault_get_set
  registered := vault_registered
  own := vault_own
  apart := vault_apart

def vaultActions : List (ServerAction Unit) :=
  [.put "dev" [1, 2, 3], .typed (.configureStateStore ⟨"mirror", none, some 2⟩),
    .typed (.configureStateStore ⟨"vault", some ⟨[], []⟩, some 7⟩),
    .typed (.configureStateStore ⟨"archive", none, some 5⟩), .provider .getMetadata]

theorem negotiated_size_governs_vault : (sizedVault.memory ({}, {})).chunkSize = 0 ∧
    ∃ s, (sizedVault.run vaultActions).run ({}, {}) = ([2], s) ∧
      Partition [1, 2, 3] 2 [] ((vaultServer.readStateBytes ⟨"vault", "dev"⟩).run s).1 := by
  have hrun : (sizedVault.run vaultActions).run ({}, {}) =
      ([2], ((sizedVault.run vaultActions).run ({}, {})).2) := rfl
  have h := negotiated_size_governs rfl hrun
  exact ⟨rfl, _, hrun, h.read ⟨"vault", "dev"⟩ (by decide)⟩

end SizedMemory

end ProviderProtocol
