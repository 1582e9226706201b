import ProviderProtocol.Proofs.Server.Upload
/-!
# Downloads that are uploaded again

The chunks of a download, sent back as they are with a target on the first one, make an upload that is put together to
the state they were cut from (`received_resend`).  So a state goes from a store to any store, on the same server or
another one, whatever the chunk size is (`download_uploads`).
-/
namespace ProviderProtocol

/-- The chunk of a download as one of an upload. -/
def Wire.DownloadChunk.resend (target : Option Wire.StateRequest) (c : Wire.DownloadChunk) : Wire.UploadChunk :=
  ⟨target, c.bytes, c.totalLength, c.range⟩

namespace Server

open Operation

/-- The chunks of a download as an upload; the first one names the target. -/
def resend (target : Wire.StateRequest) : List Wire.DownloadChunk → List Wire.UploadChunk
  | []        => []
  | c :: rest => c.resend (some target) :: rest.map (Wire.DownloadChunk.resend none)

theorem flatMap_bytes_resend (target : Wire.StateRequest) : ∀ chunks : List Wire.DownloadChunk,
    (resend target chunks).flatMap Wire.UploadChunk.bytes = chunks.flatMap Wire.DownloadChunk.bytes
  | []        => rfl
  | c :: rest => by
    rw [resend, List.flatMap_cons, List.flatMap_cons, List.flatMap_map]
    rfl

/-! ## Cut pieces -/

theorem startsFrom_chunksFrom (total : Nat) : ∀ (offset : Nat) (parts : List Bytes),
    StartsFrom offset ((chunksFrom total offset parts).map (Wire.DownloadChunk.resend none))
  | offset, []        => startsFrom_nil offset
  | offset, p :: rest => by
    rw [chunksFrom, List.map_cons, startsFrom_cons]
    refine ⟨fun r hr => ?_, startsFrom_chunksFrom total (offset + p.length) rest⟩
    cases hr
    rfl

theorem chunkState_eq (bytes : Bytes) (size : Nat) (ds : List WireDiagnostic) : ∃ p rest,
    chunkState bytes size ds =
      { bytes := p, totalLength := bytes.length, range := some ⟨0, p.length⟩, diagnostics := ds } ::
        chunksFrom bytes.length p.length rest := by
  unfold chunkState
  cases bytes with
  | nil       => exact ⟨[], [], rfl⟩
  | cons b bs =>
    refine ⟨(b :: bs).take (max size 1), pieces (max size 1) bs.length ((b :: bs).drop (max size 1)), ?_⟩
    show reportOnFirst ds (chunksFrom _ 0 (pieces _ (bs.length + 1) (b :: bs))) = _
    rw [pieces, chunksFrom, reportOnFirst, Nat.zero_add]
    rfl

/-- **What a state is cut into is put together to the state**, also if it is empty or smaller than a chunk. -/
theorem received_resend (target : Wire.StateRequest) (bytes : Bytes) (size : Nat) (ds : List WireDiagnostic) :
    received (resend target (chunkState bytes size ds)) = .ok bytes := by
  have hbytes : (resend target (chunkState bytes size ds)).flatMap Wire.UploadChunk.bytes = bytes :=
    (flatMap_bytes_resend target _).trans (flatMap_bytes_chunkState bytes size ds)
  obtain ⟨p, rest, hchunks⟩ := chunkState_eq bytes size ds
  rw [hchunks, resend] at hbytes ⊢
  -- the first chunk names the target and the others do not, so its range is looked at apart from theirs
  refine received_eq_ok_iff.2 ⟨startsFrom_cons.2 ⟨fun r hr => ?_, ?_⟩, hbytes.symm, rfl⟩
  · cases hr
    rfl
  · rw [Nat.zero_add]
    exact startsFrom_chunksFrom _ p.length rest

theorem uploadTarget_resend (target : Wire.StateRequest) (bytes : Bytes) (size : Nat) (ds : List WireDiagnostic) :
    TypedRequest.uploadTarget (resend target (chunkState bytes size ds)) = .ok target := by
  obtain ⟨p, rest, hchunks⟩ := chunkState_eq bytes size ds
  rw [hchunks]
  rfl

/-! ## From store to store -/

variable {source : Server σ} {destination : Server τ} {store : StateStore σ} {other : StateStore τ} {s s' : σ}
  {bytes : Bytes} {size : Int} {ds : List Diagnostic}

theorem run_readStateBytes (origin : Wire.StateRequest)
    (hstore : source.registry.stateStore origin.typeName = .ok store)
    (hread : store.readBytes origin.id ⟨[], source.options.chunkSize, []⟩ s = (⟨bytes, size, ds⟩, s'))
    (herrors : hasErrors ds = false) :
    (source.readStateBytes origin).run s =
      (chunkState bytes (if 0 < size then size else source.options.chunkSize).toNat (wire ds), s') := by
  unfold readStateBytes
  rw [run_answer_found hstore, run_answer_call, hread, run_answer, exec_bind, exec_check, herrors]
  rfl

/-- **A state that is downloaded and uploaded again arrives as it was**: the store of the target is called once, with
the bytes that the other store has read. -/
theorem download_uploads (origin target : Wire.StateRequest) (t : τ)
    (hstore : source.registry.stateStore origin.typeName = .ok store)
    (hread : store.readBytes origin.id ⟨[], source.options.chunkSize, []⟩ s = (⟨bytes, size, ds⟩, s'))
    (herrors : hasErrors ds = false) (hother : destination.registry.stateStore target.typeName = .ok other) :
    (destination.observed.writeStateBytes (resend target ((source.readStateBytes origin).run s).1)).run (t, []) =
      (⟨wire (other.writeBytes ⟨target.id, bytes⟩ [] t).1⟩, (other.writeBytes ⟨target.id, bytes⟩ [] t).2,
        [.stateStore target.typeName (.writeBytes ⟨target.id, bytes⟩)]) := by
  have hover : handedOver destination.registry (resend target (chunkState bytes
      (if 0 < size then size else source.options.chunkSize).toNat (wire ds))) =
      .ok ⟨target.typeName, other, ⟨target.id, bytes⟩⟩ :=
    handedOver_eq_ok_iff.2 ⟨target, other, bytes, uploadTarget_resend .., hother, received_resend .., rfl⟩
  rw [run_readStateBytes origin hstore hread herrors, observed_writeStateBytes, hover]

/-- Five bytes travel in three chunks, no bytes in one. -/
theorem download_uploads_drawer :
    (((drawerServer.readStateBytes ⟨"drawer", "dev"⟩).run [1, 2, 3, 4, 5]).1.map Wire.DownloadChunk.bytes =
        [[1, 2], [3, 4], [5]] ∧
      (drawerServer.observed.writeStateBytes (resend ⟨"drawer", "prod"⟩
          ((drawerServer.readStateBytes ⟨"drawer", "dev"⟩).run [1, 2, 3, 4, 5]).1)).run ([9], []) =
        (⟨[]⟩, [1, 2, 3, 4, 5], [.stateStore "drawer" (.writeBytes ⟨"prod", [1, 2, 3, 4, 5]⟩)])) ∧
    ((drawerServer.readStateBytes ⟨"drawer", "dev"⟩).run []).1.map Wire.DownloadChunk.bytes = [[]] ∧
      (drawerServer.observed.writeStateBytes (resend ⟨"drawer", "prod"⟩
          ((drawerServer.readStateBytes ⟨"drawer", "dev"⟩).run []).1)).run ([9], []) =
        (⟨[]⟩, [], [.stateStore "drawer" (.writeBytes ⟨"prod", []⟩)]) := by
  have hdrawer : drawerServer.registry.stateStore "drawer" = .ok drawer := rfl
  have hread (bytes : Bytes) : drawer.readBytes "dev" ⟨[], drawerServer.options.chunkSize, []⟩ bytes =
      (⟨bytes, 2, []⟩, bytes) := rfl
  have harrives (bytes : Bytes) :=
    download_uploads ⟨"drawer", "dev"⟩ ⟨"drawer", "prod"⟩ [9] hdrawer (hread bytes) rfl hdrawer
  exact ⟨⟨rfl, harrives [1, 2, 3, 4, 5]⟩, rfl, harrives []⟩

end Server

end ProviderProtocol
