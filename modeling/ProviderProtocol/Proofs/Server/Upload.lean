import ProviderProtocol.Proofs.Server.Calls
import ProviderProtocol.Proofs.Server.Chunks
/-!
# Uploads

An upload is handed over to the store that its first chunk names, with its chunks one after the other, or it is answered
by one diagnostic before any handler is called (`observed_writeStateBytes`).

The ends of the ranges are not looked at (`writeStateBytes_startOnly`): a range that is longer or shorter than its chunk
is no reason to refuse it, so the ranges of an upload that is handed over start in order but need not be contiguous.
-/
namespace ProviderProtocol

namespace Server

open Operation

/-! ## What is handed over -/

/-- An upload for a store that is registered under this name. -/
structure Upload (σ : Type) where
  typeName : String
  store : StateStore σ
  req : WriteBytesRequest

/-- What an upload comes to, if it is handed over. -/
def handedOver (registry : Registry σ) (chunks : List Wire.UploadChunk) : Except Diagnostic (Upload σ) :=
  match TypedRequest.uploadTarget chunks with
  | .error fault => .error fault.diagnostic
  | .ok target   =>
    match registry.stateStore target.typeName, received chunks with
    | .error d, _          => .error d
    | .ok _, .error fault  => .error fault.diagnostic
    | .ok store, .ok bytes => .ok ⟨target.typeName, store, ⟨target.id, bytes⟩⟩

theorem handedOver_eq_ok_iff {registry : Registry σ} {chunks : List Wire.UploadChunk} {u : Upload σ} :
    handedOver registry chunks = .ok u ↔ ∃ target store bytes, TypedRequest.uploadTarget chunks = .ok target ∧
      registry.stateStore target.typeName = .ok store ∧ received chunks = .ok bytes ∧
      u = ⟨target.typeName, store, ⟨target.id, bytes⟩⟩ := by
  unfold handedOver
  constructor
  · intro h
    cases htarget : TypedRequest.uploadTarget chunks with
    | error fault => rw [htarget] at h; cases h
    | ok target   =>
      rw [htarget] at h
      dsimp only at h
      split at h
      · cases h
      · cases h
      · rename_i store bytes hstore hbytes
        cases h
        exact ⟨target, store, bytes, rfl, hstore, hbytes, rfl⟩
  · rintro ⟨target, store, bytes, htarget, hstore, hbytes, rfl⟩
    rw [htarget]
    dsimp only
    rw [hstore, hbytes]

theorem run_writeStateBytes (server : Server σ) (chunks : List Wire.UploadChunk) (s : σ) :
    (server.writeStateBytes chunks).run s = match handedOver server.registry chunks with
      | .error d => (⟨[d.toWire]⟩, s)
      | .ok u    => (⟨wire (u.store.writeBytes u.req [] s).1⟩, (u.store.writeBytes u.req [] s).2) := by
  unfold handedOver
  cases htarget : TypedRequest.uploadTarget chunks with
  | error fault => exact writeStateBytes_of_no_target htarget server s
  | ok target   =>
    rw [writeStateBytes_of_target htarget]
    dsimp only
    cases server.registry.stateStore target.typeName with
    | error d  => rfl
    | ok store =>
      cases received chunks with
      | error fault => rfl
      | ok bytes    => rfl

theorem handedOver_observed (registry : Registry σ) (chunks : List Wire.UploadChunk) :
    handedOver registry.observed chunks =
      (handedOver registry chunks).map fun u => ⟨u.typeName, u.store.observed u.typeName, u.req⟩ := by
  unfold handedOver
  cases TypedRequest.uploadTarget chunks with
  | error fault => rfl
  | ok target   =>
    dsimp only
    rw [Registry.stateStore_observed]
    cases registry.stateStore target.typeName with
    | error d  => rfl
    | ok store =>
      cases received chunks with
      | error fault => rfl
      | ok bytes    => rfl

/-- **An upload calls the store once, with what it comes to, or nothing at all.** -/
theorem observed_writeStateBytes (server : Server σ) (chunks : List Wire.UploadChunk) (s : σ) :
    (server.observed.writeStateBytes chunks).run (s, []) = match handedOver server.registry chunks with
      | .error d => (⟨[d.toWire]⟩, s, [])
      | .ok u    => (⟨wire (u.store.writeBytes u.req [] s).1⟩, (u.store.writeBytes u.req [] s).2,
          [.stateStore u.typeName (.writeBytes u.req)]) := by
  have hobserved : server.observed.registry = server.registry.observed := rfl
  rw [run_writeStateBytes, hobserved, handedOver_observed]
  cases handedOver server.registry chunks with
  | error d => rfl
  | ok u    => rfl

/-! ## Ranges -/

/-- Each range that is given is exactly the bytes that its chunk takes up. -/
def RangesExact (chunks : List Wire.UploadChunk) : Prop :=
  ∀ (before : List Wire.UploadChunk) (c : Wire.UploadChunk) (after : List Wire.UploadChunk),
    chunks = before ++ c :: after → ∀ r, c.range = some r →
      r = ⟨(before.flatMap Wire.UploadChunk.bytes).length,
        ((before.flatMap Wire.UploadChunk.bytes).length + c.bytes.length : Nat)⟩

/-- The chunk with its range, if there is one, cut down to where it starts. -/
def startOnly (c : Wire.UploadChunk) : Wire.UploadChunk := { c with range := c.range.map fun r => ⟨r.start, r.start⟩ }

theorem assemble_startOnly : ∀ (before : Bytes) (chunks : List Wire.UploadChunk),
    assemble before (chunks.map startOnly) = assemble before chunks
  | _, []             => rfl
  | before, c :: rest => by
    have hrest : assemble (before ++ (startOnly c).bytes) (rest.map startOnly) = assemble (before ++ c.bytes) rest :=
      assemble_startOnly _ rest
    have hrange : (startOnly c).range = c.range.map fun r => ⟨r.start, r.start⟩ := rfl
    rw [List.map_cons, assemble, assemble, hrange, hrest]
    -- what is compared of a range is its start, and that stays
    cases c.range with
    | none   => rfl
    | some r => rfl

/-- **A server does not look at the ends of the ranges.** -/
theorem writeStateBytes_startOnly (server : Server σ) (chunks : List Wire.UploadChunk) :
    server.writeStateBytes (chunks.map startOnly) = server.writeStateBytes chunks := by
  cases chunks with
  | nil           => rfl
  | cons first rest =>
    have hall := assemble_startOnly [] (first :: rest)
    rw [List.map_cons] at hall ⊢
    unfold writeStateBytes
    rw [hall]
    rfl

/-- What is known of the ranges of chunks that this server hands over. -/
structure RangesOfAccepted (server : Server σ) (chunks : List Wire.UploadChunk) : Prop where
  starts : StartsFrom 0 chunks
  exact_iff : RangesExact chunks ↔ ∀ c ∈ chunks, ∀ r, c.range = some r → r.stop = r.start + c.bytes.length
  /-- Two neighbours meet exactly if the range of the first one is as long as the chunk. -/
  meet_iff : ∀ (before : List Wire.UploadChunk) (c d : Wire.UploadChunk) (after : List Wire.UploadChunk),
    chunks = before ++ c :: d :: after → ∀ r q, c.range = some r → d.range = some q →
      (r.stop = q.start ↔ r.stop = r.start + c.bytes.length)
  /-- Chunks that differ in the ends of their ranges only are handed over as well, with the same answer. -/
  ends_free : ∀ others : List Wire.UploadChunk, others.map startOnly = chunks.map startOnly →
    server.writeStateBytes others = server.writeStateBytes chunks

theorem rangesExact_iff {chunks : List Wire.UploadChunk} (h : StartsFrom 0 chunks) :
    RangesExact chunks ↔ ∀ c ∈ chunks, ∀ r, c.range = some r → r.stop = r.start + c.bytes.length := by
  constructor
  · intro hexact c hc r hr
    obtain ⟨before, after, hsplit⟩ := List.append_of_mem hc
    rw [hexact before c after hsplit r hr]
    dsimp only
    omega
  · intro hlength before c after hsplit r hr
    have hmem : c ∈ chunks := by
      rw [hsplit]
      exact List.mem_append_right _ (List.mem_cons_self ..)
    have hstart := h before c after hsplit r hr
    have hstop := hlength c hmem r hr
    obtain ⟨start, stop⟩ := r
    rw [Wire.ByteRange.mk.injEq]
    dsimp only at hstart hstop
    omega

theorem meet_iff_of_startsFrom {before : List Wire.UploadChunk} {c d : Wire.UploadChunk} {after : List Wire.UploadChunk}
    {r q : Wire.ByteRange} (h : StartsFrom 0 (before ++ c :: d :: after)) (hr : c.range = some r)
    (hq : d.range = some q) : r.stop = q.start ↔ r.stop = r.start + c.bytes.length := by
  have hfirst := h before c (d :: after) rfl r hr
  have hsecond := h (before ++ [c]) d after (List.append_cons ..) q hq
  rw [List.flatMap_append, List.flatMap_singleton, List.length_append] at hsecond
  omega

/-- **The ranges of an upload that is handed over start where the chunks before them end**; that they are as long as
their chunks, and so contiguous, is left to the client. -/
theorem accepted_ranges_start_in_order (server : Server σ) (chunks : List Wire.UploadChunk) (s : σ)
    (h : ((server.observed.writeStateBytes chunks).run (s, [])).2.2 ≠ []) : RangesOfAccepted server chunks := by
  have hstarts : StartsFrom 0 chunks := by
    rw [observed_writeStateBytes] at h
    -- a call is noted only if the chunks were put together, which takes that the ranges start in order
    cases hover : handedOver server.registry chunks with
    | error d => rw [hover] at h; exact absurd rfl h
    | ok u    =>
      obtain ⟨target, store, bytes, htarget, -, hbytes, -⟩ := handedOver_eq_ok_iff.1 hover
      cases chunks with
      | nil             => cases htarget
      | cons first rest => exact (received_eq_ok_iff.1 hbytes).1
  refine ⟨hstarts, rangesExact_iff hstarts, ?_, ?_⟩
  · rintro before c d after rfl r q hr hq
    exact meet_iff_of_startsFrom hstarts hr hq
  · intro others hsame
    rw [← writeStateBytes_startOnly server others, hsame, writeStateBytes_startOnly]

/-! ### Drawers

A drawer keeps the bytes that were put in last.  The first of these chunks says that it goes up to byte nine, beyond the
end of the upload, the second one starts at byte two. -/

def drawer : StateStore Bytes where
  readBytes _ resp := do return { resp with bytes := ← get, chunkSize := 2 }
  writeBytes req ds := do
    set req.bytes
    return ds

def drawerServer : Server Bytes := ⟨({ provider := {} } : Registry Bytes).addStateStore "drawer" drawer, {}⟩

def uploadUpTo (stop : Int) : List Wire.UploadChunk :=
  [⟨some ⟨"drawer", "dev"⟩, [1, 2], 3, some ⟨0, stop⟩⟩, ⟨none, [3], 3, some ⟨2, 3⟩⟩]

theorem accepted_ranges_start_in_order_drawer :
    ((drawerServer.observed.writeStateBytes (uploadUpTo 9)).run ([], [])).2.2 ≠ [] ∧
      StartsFrom 0 (uploadUpTo 9) ∧
      drawerServer.writeStateBytes (uploadUpTo 2) = drawerServer.writeStateBytes (uploadUpTo 9) := by
  have haccepted : ((drawerServer.observed.writeStateBytes (uploadUpTo 9)).run ([], [])).2.2 ≠ [] :=
    List.cons_ne_nil _ _
  have h := accepted_ranges_start_in_order drawerServer (uploadUpTo 9) [] haccepted
  exact ⟨haccepted, h.starts, h.ends_free (uploadUpTo 2) rfl⟩

/-- The upload is put into the drawer, though its ranges are neither exact nor contiguous. -/
theorem overlapping_ranges_accepted :
    (drawerServer.observed.writeStateBytes (uploadUpTo 9)).run ([], []) =
        (⟨[]⟩, [1, 2, 3], [.stateStore "drawer" (.writeBytes ⟨"dev", [1, 2, 3]⟩)]) ∧
      ¬ RangesExact (uploadUpTo 9) ∧
      ∃ c d r q, uploadUpTo 9 = [c, d] ∧ c.range = some r ∧ d.range = some q ∧ r.stop ≠ q.start := by
  refine ⟨rfl, fun hexact => ?_, _, _, _, _, rfl, rfl, rfl, by decide⟩
  have hfirst := hexact [] _ _ rfl _ rfl
  exact absurd hfirst (by decide)

end Server

end ProviderProtocol
