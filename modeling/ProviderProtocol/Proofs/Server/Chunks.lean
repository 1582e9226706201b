import ProviderProtocol.Proofs.Server.Errors
import ProviderProtocol.Proofs.Server.Request
/-!
# Chunks

Cutting a state into chunks and putting chunks together lose no byte: the chunks of a download make up the state
(`flatMap_bytes_chunkState`), and an upload that is received is its chunks one after the other.  Chunks are put together
exactly if each range that is given starts where the chunks before it end (`assemble_eq_ok_iff`).
-/
namespace ProviderProtocol.Server

open Operation (answer call found halt exec run_answer)

/-! ## Splits

What is said of every item of a list and of those around it. -/

section

variable {P : List α → α → List α → Prop}

theorem forall_split_nil : ∀ before x after, ([] : List α) = before ++ x :: after → P before x after := by
  intro before x after h
  cases before <;> cases h

theorem forall_split_cons {x : α} {xs : List α} :
    (∀ before y after, x :: xs = before ++ y :: after → P before y after) ↔
      P [] x xs ∧ ∀ before y after, xs = before ++ y :: after → P (x :: before) y after := by
  constructor
  · exact fun h => ⟨h [] x xs rfl, fun before y after hrest => h (x :: before) y after (congrArg (x :: ·) hrest)⟩
  · rintro ⟨hfirst, hrest⟩ before y after hsplit
    cases before with
    | nil           =>
      cases hsplit
      exact hfirst
    | cons _ before =>
      cases hsplit
      exact hrest before y after rfl

end

/-! ## Download -/

theorem flatten_pieces (size : Nat) : ∀ (fuel : Nat) (bytes : Bytes), (pieces size fuel bytes).flatten = bytes
  | _, []             => by rw [pieces]; rfl
  | 0, b :: bs        => List.append_nil (b :: bs)
  | fuel + 1, b :: bs => by
    rw [pieces, List.flatten_cons, flatten_pieces size fuel, List.take_append_drop]

theorem map_bytes_chunksFrom (total : Nat) : ∀ (start : Nat) (parts : List Bytes),
    (chunksFrom total start parts).map Wire.DownloadChunk.bytes = parts
  | _, []            => rfl
  | start, p :: rest => congrArg (p :: ·) (map_bytes_chunksFrom total (start + p.length) rest)

theorem map_bytes_reportOnFirst (ds : List WireDiagnostic) : ∀ chunks : List Wire.DownloadChunk,
    (reportOnFirst ds chunks).map Wire.DownloadChunk.bytes = chunks.map Wire.DownloadChunk.bytes
  | []     => rfl
  | _ :: _ => rfl

/-- **The chunks of a state make up the state**, whatever their size. -/
theorem flatMap_bytes_chunkState (bytes : Bytes) (size : Nat) (ds : List WireDiagnostic) :
    (chunkState bytes size ds).flatMap Wire.DownloadChunk.bytes = bytes := by
  unfold chunkState
  dsimp only
  rw [List.flatMap_def, map_bytes_reportOnFirst, map_bytes_chunksFrom]
  cases bytes with
  | nil       => rfl
  | cons b bs => exact flatten_pieces _ _ (b :: bs)

/-! ## Upload -/

/-- Each range that is given starts where the chunks before it end; the first chunk is at this offset. -/
def StartsFrom (offset : Nat) (chunks : List Wire.UploadChunk) : Prop :=
  ∀ (before : List Wire.UploadChunk) (c : Wire.UploadChunk) (after : List Wire.UploadChunk),
    chunks = before ++ c :: after → ∀ r, c.range = some r →
      r.start = (offset + (before.flatMap Wire.UploadChunk.bytes).length : Nat)

theorem startsFrom_nil (offset : Nat) : StartsFrom offset [] := forall_split_nil

theorem startsFrom_cons {offset : Nat} {c : Wire.UploadChunk} {rest : List Wire.UploadChunk} :
    StartsFrom offset (c :: rest) ↔
      (∀ r, c.range = some r → r.start = offset) ∧ StartsFrom (offset + c.bytes.length) rest := by
  unfold StartsFrom
  rw [forall_split_cons]
  simp only [List.flatMap_nil, List.length_nil, Nat.add_zero, List.flatMap_cons, List.length_append, Nat.add_assoc]

theorem assemble_eq_ok_iff {bytes : Bytes} : ∀ {chunks : List Wire.UploadChunk} {before : Bytes},
    assemble before chunks = .ok bytes ↔
      StartsFrom before.length chunks ∧ bytes = before ++ chunks.flatMap Wire.UploadChunk.bytes
  | [], before        => by
    rw [assemble, Except.ok.injEq, List.flatMap_nil, List.append_nil, eq_comm]
    exact (and_iff_right (startsFrom_nil _)).symm
  | c :: rest, before => by
    -- the rest comes after what was before and this chunk, so the induction is for any bytes before
    have hrest : assemble (before ++ c.bytes) rest = .ok bytes ↔
        StartsFrom (before.length + c.bytes.length) rest ∧
          bytes = before ++ (c :: rest).flatMap Wire.UploadChunk.bytes := by
      rw [assemble_eq_ok_iff, List.length_append, List.append_assoc, List.flatMap_cons]
    rw [assemble, startsFrom_cons]
    cases hrange : c.range with
    | none   => simpa using hrest
    | some r =>
      dsimp only
      by_cases hstart : r.start = before.length
      · rw [if_pos hstart, hrest]
        simp [hstart]
      · rw [if_neg hstart]
        simp [hstart]

theorem UploadFault.reportsError_diagnostic (fault : UploadFault) : reportsError [fault.diagnostic.toWire] = true := by
  cases fault <;> rfl

/-- The bytes of an upload, if it is put together and as long as its first chunk says. -/
def received : List Wire.UploadChunk → Except UploadFault Bytes
  | []            => .error .noChunk
  | first :: rest =>
    match assemble [] (first :: rest) with
    | .error fault => .error fault
    | .ok bytes    =>
      if first.totalLength = bytes.length then .ok bytes else .error (.incomplete first.totalLength bytes.length)

theorem received_eq_ok_iff {bytes : Bytes} {first : Wire.UploadChunk} {rest : List Wire.UploadChunk} :
    received (first :: rest) = .ok bytes ↔ StartsFrom 0 (first :: rest) ∧
      bytes = (first :: rest).flatMap Wire.UploadChunk.bytes ∧ first.totalLength = bytes.length := by
  have hall : ∀ {all}, assemble [] (first :: rest) = .ok all ↔
      StartsFrom 0 (first :: rest) ∧ all = (first :: rest).flatMap Wire.UploadChunk.bytes := assemble_eq_ok_iff
  rw [received, ← and_assoc, ← hall]
  cases assemble [] (first :: rest) with
  | error fault => simp
  | ok all      =>
    dsimp only
    by_cases hlength : first.totalLength = all.length
    · rw [if_pos hlength, Except.ok.injEq]
      exact ⟨fun h => ⟨h, h ▸ hlength⟩, And.left⟩
    · rw [if_neg hlength, Except.ok.injEq]
      exact ⟨fun h => (nomatch h), fun ⟨h, hbytes⟩ => absurd (h ▸ hbytes) hlength⟩

theorem received_eq_ok {bytes : Bytes} {chunks : List Wire.UploadChunk} (h : received chunks = .ok bytes) :
    bytes = chunks.flatMap Wire.UploadChunk.bytes := by
  cases chunks with
  | nil             => cases h
  | cons first rest => exact (received_eq_ok_iff.1 h).2.1

theorem uploaded_ok_bind (a : α) (f : α → Operation σ β) : uploaded (.ok a) >>= f = f a := rfl

theorem writeStateBytes_of_target {chunks : List Wire.UploadChunk} {target : Wire.StateRequest}
    (h : TypedRequest.uploadTarget chunks = .ok target) (server : Server σ) :
    server.writeStateBytes chunks = answer Wire.Report.mk do
      let store ← found (server.registry.stateStore target.typeName)
      let bytes ← uploaded (received chunks)
      return ⟨wire (← call store.writeBytes ⟨target.id, bytes⟩ [])⟩ := by
  cases chunks with
  | nil => cases h
  | cons first rest =>
    unfold writeStateBytes
    rw [TypedRequest.uploadTarget] at h
    dsimp only at h ⊢
    cases hf : first.target with
    | none => rw [hf] at h; cases h
    | some t =>
      rw [hf] at h
      cases h
      dsimp only
      refine congrArg (answer Wire.Report.mk) (bind_congr fun store => ?_)
      rw [received]
      cases assemble [] (first :: rest) with
      | error fault => rfl
      | ok bytes =>
        dsimp only
        by_cases hlength : first.totalLength = bytes.length
        · rw [if_pos hlength]
          show (if _ then _ else _) = _
          rw [if_pos hlength]
          rfl
        · rw [if_neg hlength]
          show (if _ then _ else _) = _
          rw [if_neg hlength]
          rfl

theorem writeStateBytes_of_no_target {chunks : List Wire.UploadChunk} {fault : UploadFault}
    (h : TypedRequest.uploadTarget chunks = .error fault) (server : Server σ) (s : σ) :
    (server.writeStateBytes chunks).run s = (⟨[fault.diagnostic.toWire]⟩, s) := by
  cases chunks with
  | nil =>
    cases h
    rfl
  | cons first rest =>
    rw [TypedRequest.uploadTarget] at h
    unfold writeStateBytes
    cases hf : first.target with
    | some t => rw [hf] at h; cases h
    | none =>
      rw [hf] at h
      cases h
      dsimp only
      rw [hf]
      rfl

end ProviderProtocol.Server
