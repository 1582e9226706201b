import ProviderProtocol.Proofs.Server.Guards
import ProviderProtocol.Proofs.Server.Transfer
/-!
# Downloads partition the state

The chunks of a download cut the state without a gap: they hold its bytes in order, their ranges lie end to end from
zero to its length, all but the last are of the size in force and the last one is no longer (`Partition`).  So every
download is that succeeds, and it does exactly if there is a store of the name and the store reports no error
(`successful_reads_partition`).

Cutting is a recursion on the bytes that are left.  What is said of one chunk is said of a split of their list, into
those before it, the chunk and those after it.
-/
namespace ProviderProtocol

/-- The server always has a size to fall back on. -/
theorem ServerOptions.chunkSize_pos (o : ServerOptions) : 0 < o.chunkSize := by
  unfold chunkSize
  split
  · assumption
  · decide

namespace Server

open Operation

/-! ## Pieces -/

/-- No piece is empty or longer than the size, and all but the last are of the size. -/
def CutTo (size : Nat) (parts : List Bytes) : Prop :=
  ∀ (before : List Bytes) (p : Bytes) (after : List Bytes), parts = before ++ p :: after →
    p ≠ [] ∧ p.length ≤ size ∧ (after ≠ [] → p.length = size)

theorem cutTo_cons {size : Nat} {p : Bytes} {rest : List Bytes} (hp : p ≠ []) (hle : p.length ≤ size)
    (hfull : rest ≠ [] → p.length = size) (hrest : CutTo size rest) : CutTo size (p :: rest) :=
  forall_split_cons.2 ⟨⟨hp, hle, hfull⟩, hrest⟩

/-- With enough fuel the pieces are cut to a size that is not zero. -/
theorem cutTo_pieces {size : Nat} (hsize : 0 < size) : ∀ (fuel : Nat) (bytes : Bytes), bytes.length ≤ fuel →
    CutTo size (pieces size fuel bytes)
  | _, [], _             => by
    rw [pieces]
    exact forall_split_nil
  | fuel + 1, b :: bs, h => by
    rw [pieces]
    have hleft : ((b :: bs).drop size).length ≤ fuel := by
      rw [List.length_drop]
      omega
    refine cutTo_cons ?_ (List.length_take_le ..) (fun hmore => ?_) (cutTo_pieces hsize fuel _ hleft)
    · exact fun hnil => absurd (List.take_eq_nil_iff.1 hnil) (by simp; omega)
    · -- a piece that more follow is full, since something was left when it was cut
      have hlong : ¬ (b :: bs).length ≤ size := by
        intro hshort
        rw [List.drop_eq_nil_of_le hshort, pieces] at hmore
        exact hmore rfl
      rw [List.length_take]
      omega

/-- What a state is cut into. -/
theorem map_bytes_chunkState (bytes : Bytes) (size : Nat) (ds : List WireDiagnostic) :
    (chunkState bytes size ds).map Wire.DownloadChunk.bytes =
      if bytes.isEmpty then [[]] else pieces (max size 1) bytes.length bytes := by
  unfold chunkState
  dsimp only
  rw [map_bytes_reportOnFirst, map_bytes_chunksFrom]

theorem cutTo_chunkState {bytes : Bytes} {size : Nat} (hsize : 0 < size) (hbytes : bytes ≠ [])
    (ds : List WireDiagnostic) : CutTo size ((chunkState bytes size ds).map Wire.DownloadChunk.bytes) := by
  rw [map_bytes_chunkState, if_neg (by simpa using hbytes), Nat.max_eq_left hsize]
  exact cutTo_pieces hsize _ bytes (Nat.le_refl _)

/-- Where a chunk stands among the chunks, its bytes stand among the pieces. -/
theorem CutTo.chunk {size : Nat} {chunks before : List Wire.DownloadChunk} {c : Wire.DownloadChunk}
    {after : List Wire.DownloadChunk} (h : CutTo size (chunks.map Wire.DownloadChunk.bytes))
    (hchunks : chunks = before ++ c :: after) :
    c.bytes ≠ [] ∧ c.bytes.length ≤ size ∧ (after ≠ [] → c.bytes.length = size) := by
  rw [hchunks, List.map_append, List.map_cons] at h
  obtain ⟨hne, hle, hfull⟩ := h _ _ _ rfl
  exact ⟨hne, hle, fun hafter => hfull (by simpa using hafter)⟩

/-- A state without bytes is one chunk without bytes. -/
theorem alone_of_chunkState_nil {size : Nat} {ds : List WireDiagnostic} {before : List Wire.DownloadChunk}
    {c : Wire.DownloadChunk} {after : List Wire.DownloadChunk} (h : chunkState [] size ds = before ++ c :: after) :
    c.bytes = [] ∧ after = [] := by
  have hparts := map_bytes_chunkState [] size ds
  rw [h, List.map_append, List.map_cons] at hparts
  cases before with
  | nil      =>
    obtain ⟨hc, hafter⟩ := List.cons.inj hparts
    exact ⟨hc, List.map_eq_nil_iff.1 hafter⟩
  | cons _ _ => exact absurd (congrArg List.length hparts) (by simp)

/-! ## Chunks -/

/-- Ranges that lie end to end, from zero to the length; each is as long as its chunk. -/
structure Tiled (length : Nat) (chunks : List Wire.DownloadChunk) : Prop where
  each : ∀ c ∈ chunks, ∃ r, c.range = some r ∧ r.stop - r.start = c.bytes.length
  first : ∀ (c : Wire.DownloadChunk) rest r, chunks = c :: rest → c.range = some r → r.start = 0
  next : ∀ before (c d : Wire.DownloadChunk) after r q, chunks = before ++ c :: d :: after → c.range = some r →
    d.range = some q → q.start = r.stop
  last : ∀ before (c : Wire.DownloadChunk) r, chunks = before ++ [c] → c.range = some r → r.stop = length

/-- The chunks of a state. -/
structure Partition (bytes : Bytes) (size : Nat) (reported : List WireDiagnostic)
    (chunks : List Wire.DownloadChunk) : Prop where
  nonempty : chunks ≠ []
  whole : chunks.flatMap Wire.DownloadChunk.bytes = bytes
  totalLength : ∀ c ∈ chunks, c.totalLength = bytes.length
  tiled : Tiled bytes.length chunks
  full : ∀ before c after, chunks = before ++ c :: after → after ≠ [] → c.bytes.length = size
  /-- Only the chunk of an empty state is empty. -/
  last : ∀ before c, chunks = before ++ [c] → c.bytes.length ≤ size ∧ (c.bytes = [] → bytes = [])
  reports : ∀ c rest, chunks = c :: rest → c.diagnostics = reported ∧ ∀ d ∈ rest, d.diagnostics = []

/-- A chunk of the total length that takes up the bytes from this offset on. -/
def PlacedAt (total offset : Nat) (c : Wire.DownloadChunk) : Prop :=
  c.totalLength = total ∧ c.range = some ⟨offset, (offset + c.bytes.length : Nat)⟩

/-- Each chunk is placed where the chunks before it end; the first one is at this offset. -/
def PlacedFrom (total offset : Nat) (chunks : List Wire.DownloadChunk) : Prop :=
  ∀ (before : List Wire.DownloadChunk) (c : Wire.DownloadChunk) (after : List Wire.DownloadChunk),
    chunks = before ++ c :: after →
      PlacedAt total (offset + (before.flatMap Wire.DownloadChunk.bytes).length) c

theorem placedFrom_cons {total offset : Nat} {c : Wire.DownloadChunk} {rest : List Wire.DownloadChunk}
    (hc : PlacedAt total offset c) (hrest : PlacedFrom total (offset + c.bytes.length) rest) :
    PlacedFrom total offset (c :: rest) := by
  refine forall_split_cons.2 ⟨hc, fun before d after h => ?_⟩
  rw [List.flatMap_cons, List.length_append, ← Nat.add_assoc]
  exact hrest before d after h

theorem placedFrom_chunksFrom (total : Nat) : ∀ (offset : Nat) (parts : List Bytes),
    PlacedFrom total offset (chunksFrom total offset parts)
  | _, []             => forall_split_nil
  | offset, p :: rest => placedFrom_cons ⟨rfl, rfl⟩ (placedFrom_chunksFrom total (offset + p.length) rest)

theorem PlacedFrom.tiled {length : Nat} {chunks : List Wire.DownloadChunk} (h : PlacedFrom length 0 chunks)
    (hwhole : (chunks.flatMap Wire.DownloadChunk.bytes).length = length) : Tiled length chunks where
  each c hc := by
    obtain ⟨before, after, rfl⟩ := List.append_of_mem hc
    refine ⟨_, (h before c after rfl).2, ?_⟩
    dsimp only
    omega
  first c rest r hchunks hr := by
    have hplace := (h [] c rest hchunks).2
    rw [hr] at hplace
    cases hplace
    rfl
  next before c d after r q hchunks hr hq := by
    have hplace := (h before c (d :: after) hchunks).2
    have hnext := (h (before ++ [c]) d after (by rw [hchunks, List.append_cons])).2
    rw [hr] at hplace
    rw [hq, List.flatMap_append, List.flatMap_singleton, List.length_append, ← Nat.add_assoc] at hnext
    cases hplace
    cases hnext
    rfl
  last before c r hchunks hr := by
    have hplace := (h before c [] hchunks).2
    rw [hchunks, List.flatMap_append, List.flatMap_singleton, List.length_append] at hwhole
    rw [hr] at hplace
    cases hplace
    dsimp only
    omega

/-- **The chunks that a state is cut into partition it**, whatever the size, if only there is one. -/
theorem chunkState_partition (bytes : Bytes) {size : Nat} (hsize : 0 < size) (ds : List WireDiagnostic) :
    Partition bytes size ds (chunkState bytes size ds) := by
  have hwhole := flatMap_bytes_chunkState bytes size ds
  obtain ⟨p, rest, hchunks⟩ := chunkState_eq bytes size ds
  have hplaced : PlacedFrom bytes.length 0 (chunkState bytes size ds) := by
    rw [hchunks]
    refine placedFrom_cons ⟨rfl, by rw [Nat.zero_add]; rfl⟩ ?_
    rw [Nat.zero_add]
    exact placedFrom_chunksFrom bytes.length p.length rest
  exact {
    nonempty := by rw [hchunks]; exact List.cons_ne_nil _ _
    whole := hwhole
    totalLength := fun c hc => by
      obtain ⟨before, after, h⟩ := List.append_of_mem hc
      exact (hplaced before c after h).1
    tiled := hplaced.tiled (congrArg List.length hwhole)
    full := fun before c after h hafter => by
      by_cases hbytes : bytes = []
      · subst hbytes
        exact absurd (alone_of_chunkState_nil h).2 hafter
      · exact ((cutTo_chunkState hsize hbytes ds).chunk h).2.2 hafter
    last := fun before c h => by
      by_cases hbytes : bytes = []
      · subst hbytes
        rw [(alone_of_chunkState_nil h).1]
        exact ⟨Nat.zero_le size, fun _ => rfl⟩
      · obtain ⟨hne, hle, -⟩ := (cutTo_chunkState hsize hbytes ds).chunk h
        exact ⟨hle, fun hnil => absurd hnil hne⟩
    reports := fun c others h => by
      rw [hchunks] at h
      cases h
      exact ⟨rfl, fun d hd => diagnostics_of_mem_chunksFrom hd⟩ }

/-! ## Answers -/

/-- The size of the chunks of a download: the store's, else the one of the options, else eight mebibytes; a size that is
not positive is none. -/
def effectiveSize (store option : Int) : Nat :=
  if 0 < store then store.toNat else if 0 < option then option.toNat else 8388608

theorem effectiveSize_eq (store : Int) (o : ServerOptions) :
    effectiveSize store o.stateChunkSize = (if 0 < store then store else o.chunkSize).toNat := by
  unfold effectiveSize ServerOptions.chunkSize
  split
  · rfl
  · split
    · rfl
    · rfl

theorem effectiveSize_pos (store option : Int) : 0 < effectiveSize store option := by
  unfold effectiveSize
  split
  · omega
  · split
    · omega
    · decide

/-- The answer of the store of this name, if there is one, to a read. -/
def readOf (server : Server σ) (req : Wire.StateRequest) (s : σ) : Except Diagnostic ReadBytesResponse :=
  (server.registry.stateStore req.typeName).map fun store =>
    (store.readBytes req.id ⟨[], server.options.chunkSize, []⟩ s).1

theorem readStateBytes_answer (server : Server σ) (req : Wire.StateRequest) (s : σ) :
    ((server.readStateBytes req).run s).1 = match server.readOf req s with
      | .error d => [{ diagnostics := [d.toWire] }]
      | .ok resp =>
        if hasErrors resp.diagnostics then [{ diagnostics := wire resp.diagnostics }]
        else chunkState resp.bytes (effectiveSize resp.chunkSize server.options.stateChunkSize) (wire resp.diagnostics)
    := by
  unfold readStateBytes readOf
  cases hstore : server.registry.stateStore req.typeName with
  | error d  => rfl
  | ok store =>
    rw [run_answer_found rfl, run_answer_call, run_answer, exec_bind, exec_check]
    dsimp only [Except.map]
    cases hasErrors (store.readBytes req.id ⟨[], server.options.chunkSize, []⟩ s).1.diagnostics with
    | true  => rfl
    | false =>
      rw [effectiveSize_eq]
      rfl

/-- No chunk of the answer comes with an error. -/
def ReadSucceeds (server : Server σ) (req : Wire.StateRequest) (s : σ) : Prop :=
  ∀ c ∈ ((server.readStateBytes req).run s).1, reportsError c.diagnostics = false

theorem not_readSucceeds {server : Server σ} {req : Wire.StateRequest} {s : σ} {ds : List WireDiagnostic}
    (h : ((server.readStateBytes req).run s).1 = [{ diagnostics := ds }]) (herror : reportsError ds = true) :
    ¬ ReadSucceeds server req s := by
  intro hok
  have hfirst := hok { diagnostics := ds } (by rw [h]; exact List.mem_singleton_self _)
  exact absurd herror (by rw [hfirst]; exact Bool.false_ne_true)

/-- There is no answer only for want of a store, which is an error. -/
theorem isError_of_readOf {server : Server σ} {req : Wire.StateRequest} {s : σ} {d : Diagnostic}
    (h : server.readOf req s = .error d) : d.isError = true := by
  unfold readOf at h
  cases hstore : server.registry.stateStore req.typeName with
  | ok store => rw [hstore] at h; cases h
  | error d' =>
    rw [hstore] at h
    cases h
    rw [Registry.eq_missing_of_lookUp hstore]
    rfl

theorem readSucceeds_iff {server : Server σ} {req : Wire.StateRequest} {s : σ} :
    ReadSucceeds server req s ↔ ∃ resp, server.readOf req s = .ok resp ∧ hasErrors resp.diagnostics = false := by
  have hanswer := readStateBytes_answer server req s
  cases hread : server.readOf req s with
  | error d =>
    rw [hread] at hanswer
    have herror : reportsError [d.toWire] = true := by
      rw [reportsError, List.any_cons, Diagnostic.isError_toWire, isError_of_readOf hread, Bool.true_or]
    constructor
    · exact fun hok => absurd hok (not_readSucceeds hanswer herror)
    · rintro ⟨_, hresp, _⟩
      cases hresp
  | ok resp =>
    rw [hread] at hanswer
    dsimp only at hanswer
    cases herrors : hasErrors resp.diagnostics with
    | true  =>
      rw [herrors, if_pos rfl] at hanswer
      have herror : reportsError (wire resp.diagnostics) = true := (reportsError_wire _).trans herrors
      constructor
      · exact fun hok => absurd hok (not_readSucceeds hanswer herror)
      · rintro ⟨_, hresp, hnone⟩
        cases hresp
        rw [herrors] at hnone
        cases hnone
    | false =>
      refine ⟨fun _ => ⟨resp, rfl, herrors⟩, fun _ c hc => ?_⟩
      rw [hanswer, herrors, if_neg Bool.false_ne_true] at hc
      rcases diagnostics_of_mem_chunkState hc with hds | hds
      · rw [hds, reportsError_wire, herrors]
      · rw [hds]
        rfl

/-- **The chunks of a download that succeeds partition the state that the store has read**, and are of the size in
force; a download succeeds exactly if there is a store of the name and the store reports no error. -/
theorem successful_reads_partition (server : Server σ) (req : Wire.StateRequest) (s : σ) :
    (ReadSucceeds server req s ↔ ∃ resp, server.readOf req s = .ok resp ∧ hasErrors resp.diagnostics = false) ∧
    (ReadSucceeds server req s → ∃ resp, server.readOf req s = .ok resp ∧
      Partition resp.bytes (effectiveSize resp.chunkSize server.options.stateChunkSize) (wire resp.diagnostics)
        ((server.readStateBytes req).run s).1) := by
  refine ⟨readSucceeds_iff, fun hok => ?_⟩
  obtain ⟨resp, hread, hnone⟩ := readSucceeds_iff.1 hok
  refine ⟨resp, hread, ?_⟩
  rw [readStateBytes_answer, hread]
  dsimp only
  rw [hnone, if_neg Bool.false_ne_true]
  exact chunkState_partition resp.bytes (effectiveSize_pos _ _) _

/-! ### Folders

A folder that is worn warns of it, and sets no size of its own. -/

def folder : StateStore Bytes where
  readBytes _ resp := do
    return { resp with bytes := ← get, chunkSize := -1, diagnostics := [.warning "Folder is worn" none] }

def folderServer : Server Bytes :=
  ⟨({ provider := {} } : Registry Bytes).addStateStore "folder" folder, { stateChunkSize := 2 }⟩

theorem successful_reads_partition_folder :
    ReadSucceeds folderServer ⟨"folder", "dev"⟩ [1, 2, 3, 4, 5] ∧
      Partition [1, 2, 3, 4, 5] 2 [⟨2, "Folder is worn", "", none⟩]
        ((folderServer.readStateBytes ⟨"folder", "dev"⟩).run [1, 2, 3, 4, 5]).1 ∧
      ((folderServer.readStateBytes ⟨"folder", "dev"⟩).run [1, 2, 3, 4, 5]).1.map Wire.DownloadChunk.bytes =
        [[1, 2], [3, 4], [5]] ∧
      ¬ ReadSucceeds folderServer ⟨"cupboard", "dev"⟩ [] := by
  have hread : folderServer.readOf ⟨"folder", "dev"⟩ [1, 2, 3, 4, 5] =
      .ok ⟨[1, 2, 3, 4, 5], -1, [.warning "Folder is worn" none]⟩ := rfl
  obtain ⟨hiff, hpartition⟩ := successful_reads_partition folderServer ⟨"folder", "dev"⟩ [1, 2, 3, 4, 5]
  have hok : ReadSucceeds folderServer ⟨"folder", "dev"⟩ [1, 2, 3, 4, 5] := hiff.2 ⟨_, hread, rfl⟩
  obtain ⟨resp, hresp, h⟩ := hpartition hok
  rw [hread] at hresp
  cases hresp
  refine ⟨hok, h, rfl, fun hmissing => ?_⟩
  obtain ⟨resp, hresp, _⟩ := (successful_reads_partition folderServer ⟨"cupboard", "dev"⟩ []).1.1 hmissing
  cases hresp

end Server

end ProviderProtocol
