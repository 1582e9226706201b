import ProviderProtocol.Proofs.Server.Guards
import ProviderProtocol.Proofs.Server.Upload
/-!
# Reassembly

When the chunks of an upload are handed over: `Complete` says of the chunks themselves, without putting them together,
which of them make up an upload for a store of the registry.  Those are written, once and whole, and any others are
refused by one error before a handler is called (`uploads_reassembled`).
-/
namespace ProviderProtocol

namespace Server

/-! ## Complete uploads -/

/-- The chunks are those of this upload: the first one names the store, which is registered, and the state, and declares
the length of all of them; each range that is given starts where the chunks before it end. -/
structure Complete (registry : Registry σ) (chunks : List Wire.UploadChunk) (u : Upload σ) : Prop where
  first : ∃ first rest, chunks = first :: rest ∧ first.target = some ⟨u.typeName, u.req.id⟩ ∧
    first.totalLength = (chunks.flatMap Wire.UploadChunk.bytes).length
  registered : registry.stateStore u.typeName = .ok u.store
  starts : StartsFrom 0 chunks
  whole : u.req.bytes = chunks.flatMap Wire.UploadChunk.bytes

theorem uploadTarget_eq_ok_iff {chunks : List Wire.UploadChunk} {target : Wire.StateRequest} :
    TypedRequest.uploadTarget chunks = .ok target ↔
      ∃ first rest, chunks = first :: rest ∧ first.target = some target := by
  cases chunks with
  | nil             => exact ⟨fun h => (nomatch h), fun ⟨_, _, h, _⟩ => (nomatch h)⟩
  | cons first rest =>
    have hfirst : TypedRequest.uploadTarget (first :: rest) = .ok target ↔ first.target = some target := by
      unfold TypedRequest.uploadTarget
      dsimp only
      cases first.target <;> simp
    rw [hfirst]
    constructor
    · exact fun h => ⟨first, rest, rfl, h⟩
    · rintro ⟨c, _, hchunks, hc⟩
      cases hchunks
      exact hc

/-- **What is handed over is what is complete.** -/
theorem handedOver_eq_ok_iff_complete {registry : Registry σ} {chunks : List Wire.UploadChunk} {u : Upload σ} :
    handedOver registry chunks = .ok u ↔ Complete registry chunks u := by
  rw [handedOver_eq_ok_iff]
  constructor
  · rintro ⟨target, store, bytes, htarget, hstore, hbytes, rfl⟩
    obtain ⟨first, rest, rfl, hfirst⟩ := uploadTarget_eq_ok_iff.1 htarget
    obtain ⟨hstarts, hwhole, hlength⟩ := received_eq_ok_iff.1 hbytes
    rw [hwhole] at hlength
    exact ⟨⟨first, rest, rfl, hfirst, hlength⟩, hstore, hstarts, hwhole⟩
  · intro h
    obtain ⟨first, rest, rfl, hfirst, hlength⟩ := h.first
    rw [← h.whole] at hlength
    exact ⟨⟨u.typeName, u.req.id⟩, u.store, u.req.bytes, uploadTarget_eq_ok_iff.2 ⟨first, rest, rfl, hfirst⟩,
      h.registered, received_eq_ok_iff.2 ⟨h.starts, h.whole, hlength⟩, rfl⟩

/-- At most one upload is complete with the same chunks. -/
theorem Complete.unique {registry : Registry σ} {chunks : List Wire.UploadChunk} {u v : Upload σ}
    (hu : Complete registry chunks u) (hv : Complete registry chunks v) : u = v :=
  Except.ok.inj ((handedOver_eq_ok_iff_complete.2 hu).symm.trans (handedOver_eq_ok_iff_complete.2 hv))

/-- An upload is refused by an error. -/
theorem isError_of_handedOver {registry : Registry σ} {chunks : List Wire.UploadChunk} {d : Diagnostic}
    (h : handedOver registry chunks = .error d) : d.isError = true := by
  have hfault : ∀ fault : UploadFault, fault.diagnostic.isError = true := by
    intro fault
    cases fault <;> rfl
  unfold handedOver at h
  split at h
  · cases h
    exact hfault _
  · split at h
    · rename_i hstore
      cases h
      rw [Registry.eq_missing_of_lookUp hstore]
      rfl
    · cases h
      exact hfault _
    · cases h

/-! ## Answers -/

/-- What comes of these chunks in state `s`; `result` is the answer, the state that is left and the calls. -/
structure Reassembled (registry : Registry σ) (chunks : List Wire.UploadChunk) (s : σ)
    (result : Wire.Report × σ × List Call) : Prop where
  /-- A complete upload is written, and nothing else is called; the answer is what the store reports. -/
  written : ∀ u, Complete registry chunks u → result = (⟨wire (u.store.writeBytes u.req [] s).1⟩,
    (u.store.writeBytes u.req [] s).2, [.stateStore u.typeName (.writeBytes u.req)])
  refused : (¬ ∃ u, Complete registry chunks u) → ∃ d : Diagnostic, d.isError = true ∧ result = (⟨[d.toWire]⟩, s, [])
  written_iff : (∃ name req, Call.stateStore name (.writeBytes req) ∈ result.2.2) ↔ ∃ u, Complete registry chunks u

/-- **An upload is written exactly if it is complete**, once, with the bytes of all chunks in order; else the answer is
one error and nothing is called. -/
theorem uploads_reassembled (server : Server σ) (chunks : List Wire.UploadChunk) (s : σ) :
    Reassembled server.registry chunks s ((server.observed.writeStateBytes chunks).run (s, [])) := by
  rw [observed_writeStateBytes]
  cases hover : handedOver server.registry chunks with
  | error d =>
    have hnone : ¬ ∃ u, Complete server.registry chunks u := by
      rintro ⟨u, hu⟩
      rw [handedOver_eq_ok_iff_complete.2 hu] at hover
      cases hover
    exact {
      written := fun u hu => absurd ⟨u, hu⟩ hnone
      refused := fun _ => ⟨d, isError_of_handedOver hover, rfl⟩
      written_iff := ⟨fun ⟨_, _, hcall⟩ => absurd hcall List.not_mem_nil, fun hu => absurd hu hnone⟩ }
  | ok u =>
    have hcomplete : Complete server.registry chunks u := handedOver_eq_ok_iff_complete.1 hover
    exact {
      written := fun v hv => by rw [hv.unique hcomplete]
      refused := fun hnone => absurd ⟨u, hcomplete⟩ hnone
      written_iff := ⟨fun _ => ⟨u, hcomplete⟩, fun _ => ⟨u.typeName, u.req, List.mem_singleton_self _⟩⟩ }

/-- Both chunks are put into the drawer as one; the first alone is a byte short and leaves the drawer as it is. -/
theorem uploads_reassembled_drawer :
    Complete drawerServer.registry (uploadUpTo 2) ⟨"drawer", drawer, ⟨"dev", [1, 2, 3]⟩⟩ ∧
      (drawerServer.observed.writeStateBytes (uploadUpTo 2)).run ([7], []) =
        (⟨[]⟩, [1, 2, 3], [.stateStore "drawer" (.writeBytes ⟨"dev", [1, 2, 3]⟩)]) ∧
      (¬ ∃ u, Complete drawerServer.registry ((uploadUpTo 2).take 1) u) ∧
      ∃ d : Diagnostic, d.isError = true ∧
        d.toWire = ⟨1, "Incomplete State Upload", "Declared 3 bytes, received 2.", none⟩ ∧
        (drawerServer.observed.writeStateBytes ((uploadUpTo 2).take 1)).run ([7], []) = (⟨[d.toWire]⟩, [7], []) := by
  have hcomplete : Complete drawerServer.registry (uploadUpTo 2) ⟨"drawer", drawer, ⟨"dev", [1, 2, 3]⟩⟩ :=
    handedOver_eq_ok_iff_complete.1 rfl
  have hwritten := (uploads_reassembled drawerServer (uploadUpTo 2) [7]).written _ hcomplete
  have hshort : ¬ ∃ u, Complete drawerServer.registry ((uploadUpTo 2).take 1) u := by
    rintro ⟨u, hu⟩
    obtain ⟨first, rest, hchunks, -, hlength⟩ := hu.first
    cases hchunks
    exact absurd hlength (by decide)
  obtain ⟨d, hd, hrefused⟩ := (uploads_reassembled drawerServer ((uploadUpTo 2).take 1) [7]).refused hshort
  have hincomplete : (drawerServer.observed.writeStateBytes ((uploadUpTo 2).take 1)).run ([7], []) =
      (⟨[⟨1, "Incomplete State Upload", "Declared 3 bytes, received 2.", none⟩]⟩, [7], []) := rfl
  have htext : d.toWire = ⟨1, "Incomplete State Upload", "Declared 3 bytes, received 2.", none⟩ := by
    rw [hrefused] at hincomplete
    injection hincomplete with hreport
    injection hreport with hdiagnostics
    injection hdiagnostics
  exact ⟨hcomplete, hwritten, hshort, d, hd, htext, hrefused⟩

end Server

end ProviderProtocol
