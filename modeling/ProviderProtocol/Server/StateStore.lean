import ProviderProtocol.Server.Resource
/-!
# Operations on state stores

States travel in chunks.  A download is cut into pieces of the chunk size in force, the store's if it is positive and
else the server's; an empty state is one empty chunk, and what the store reports is on the first chunk.  An upload is
put together again only if its first chunk names the target, every range that is given starts where the chunks before
it end, and the length that the first chunk declares is the length received.
-/
namespace ProviderProtocol.Server

open Operation (answer call check decode found halt schemaOf)

def validateStoreConfig (server : Server σ) (req : Wire.ConfigRequest) : StateM σ Wire.Report :=
  answer Wire.Report.mk do
    let store ← found (server.registry.stateStore req.typeName)
    let config ← configFor store.schema req.config
    return ⟨wire (← call store.validateConfig config [])⟩

/-- The size in force is the client's, if positive, and else the server's, unless the store sets another. -/
def configureStateStore (server : Server σ) (req : Wire.ConfigureStoreRequest) :
    StateM σ Wire.ConfigureStoreResponse :=
  answer (Wire.ConfigureStoreResponse.mk none) do
    let store ← found (server.registry.stateStore req.typeName)
    let config ← configFor store.schema req.config
    let wished := req.chunkSize.getD 0
    let seed := if 0 < wished then wished else server.options.chunkSize
    let resp ← call store.configure ⟨config, wished⟩ ⟨seed, []⟩
    check resp.diagnostics
    return ⟨some resp.chunkSize, wire resp.diagnostics⟩

def getStates (server : Server σ) (typeName : String) : StateM σ Wire.StatesResponse :=
  answer (Wire.StatesResponse.mk []) do
    let store ← found (server.registry.stateStore typeName)
    let resp ← call store.states () ⟨[], []⟩
    check resp.diagnostics
    return ⟨resp.ids, wire resp.diagnostics⟩

def deleteState (server : Server σ) (req : Wire.StateRequest) : StateM σ Wire.Report :=
  answer Wire.Report.mk do
    let store ← found (server.registry.stateStore req.typeName)
    return ⟨wire (← call store.delete req.id [])⟩

def lockState (server : Server σ) (req : Wire.LockRequest) : StateM σ Wire.LockResponse :=
  answer (Wire.LockResponse.mk "") do
    let store ← found (server.registry.stateStore req.typeName)
    let resp ← call store.lock ⟨req.id, req.operation⟩ ⟨"", []⟩
    check resp.diagnostics
    return ⟨resp.lockId, wire resp.diagnostics⟩

def unlockState (server : Server σ) (req : Wire.UnlockRequest) : StateM σ Wire.Report :=
  answer Wire.Report.mk do
    let store ← found (server.registry.stateStore req.typeName)
    return ⟨wire (← call store.unlock ⟨req.id, req.lockId⟩ [])⟩

/-! ## Download -/

/-- The bytes in pieces of the given size, the last one possibly shorter; the fuel bounds their number. -/
def pieces (size : Nat) : Nat → Bytes → List Bytes
  | _, []           => []
  | 0, b :: bs      => [b :: bs]
  | fuel + 1, b :: bs => (b :: bs).take size :: pieces size fuel ((b :: bs).drop size)

/-- Chunks of a state of this length, the first piece at this offset. -/
def chunksFrom (total : Nat) : Nat → List Bytes → List Wire.DownloadChunk
  | _, []           => []
  | start, p :: rest =>
    { bytes := p, totalLength := total, range := some ⟨start, (start + p.length : Nat)⟩ }
      :: chunksFrom total (start + p.length) rest

def reportOnFirst (ds : List WireDiagnostic) : List Wire.DownloadChunk → List Wire.DownloadChunk
  | []        => []
  | c :: rest => { c with diagnostics := ds } :: rest

/-- A chunk size of zero counts as one. -/
def chunkState (bytes : Bytes) (size : Nat) (ds : List WireDiagnostic) : List Wire.DownloadChunk :=
  let parts := if bytes.isEmpty then [[]] else pieces (max size 1) bytes.length bytes
  reportOnFirst ds (chunksFrom bytes.length 0 parts)

def readStateBytes (server : Server σ) (req : Wire.StateRequest) : StateM σ (List Wire.DownloadChunk) :=
  answer (fun ds => [{ diagnostics := ds }]) do
    let store ← found (server.registry.stateStore req.typeName)
    let resp ← call store.readBytes req.id ⟨[], server.options.chunkSize, []⟩
    check resp.diagnostics
    let size := if 0 < resp.chunkSize then resp.chunkSize else server.options.chunkSize
    return chunkState resp.bytes size.toNat (wire resp.diagnostics)

/-! ## Upload -/

inductive UploadFault
  | noChunk
  | noTarget
  | outOfOrder (expected : Nat) (start : Int)
  | incomplete (declared : Int) (received : Nat)
  deriving DecidableEq

def UploadFault.diagnostic : UploadFault → Diagnostic
  | .noChunk            =>
    .error "Missing State Chunk Metadata" (some "A state upload must contain at least one chunk.")
  | .noTarget           =>
    .error "Missing State Chunk Metadata"
      (some "The first chunk of a state upload must name the state store type and state id.")
  | .outOfOrder n start =>
    .error "Out of Order State Chunk"
      (some ("Expected a chunk starting at byte " ++ toString n ++ ", got one starting at byte " ++ toString start
        ++ "."))
  | .incomplete n m     =>
    .error "Incomplete State Upload" (some ("Declared " ++ toString n ++ " bytes, received " ++ toString m ++ "."))

/-- The bytes of the chunks, after the bytes of those before them. -/
def assemble (before : Bytes) : List Wire.UploadChunk → Except UploadFault Bytes
  | []        => .ok before
  | c :: rest =>
    match c.range with
    | some r =>
      if r.start = before.length then assemble (before ++ c.bytes) rest
      else .error (.outOfOrder before.length r.start)
    | none => assemble (before ++ c.bytes) rest

def uploaded : Except UploadFault α → Operation σ α
  | .ok a    => pure a
  | .error e => halt e.diagnostic

def writeStateBytes (server : Server σ) (chunks : List Wire.UploadChunk) : StateM σ Wire.Report :=
  answer Wire.Report.mk do
    match chunks with
    | []         => halt UploadFault.noChunk.diagnostic
    | first :: _ =>
      match first.target with
      | none        => halt UploadFault.noTarget.diagnostic
      | some target =>
        let store ← found (server.registry.stateStore target.typeName)
        let bytes ← uploaded (assemble [] chunks)
        if first.totalLength = bytes.length then
          return ⟨wire (← call store.writeBytes ⟨target.id, bytes⟩ [])⟩
        else halt (UploadFault.incomplete first.totalLength bytes.length).diagnostic

end ProviderProtocol.Server
