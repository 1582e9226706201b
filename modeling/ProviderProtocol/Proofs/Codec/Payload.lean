import ProviderProtocol.Proofs.Codec.Agreement
/-!
# Payloads and saved state give well-formed values

Whatever the bytes are, a value that is read from them for a canonical type is of that type and well-formed.  For
msgpack this is what is known of the reader (`Value.ofMsgpack_placed`); a value read from JSON could have been read from
msgpack as well.
-/
namespace ProviderProtocol

theorem Value.ofJson_inhabits {t : Ty} (ht : t.Canonical) (j : Json) : Yields (ofJson t j) fun v => v.Inhabits t :=
  fun v hv => (ofMsgpack_placed [] ht j.toMsgpack).yields v (((ofJsonAt_agrees [] t j).ok_iff v).1 hv)

theorem Value.ofJson_wellFormed {t : Ty} (ht : t.Canonical) (j : Json) : Yields (ofJson t j) Value.WellFormed :=
  fun v hv => (ofJson_inhabits ht j v hv).2

theorem Payload.ofMsgpackBytes_inhabits {t : Ty} (ht : t.Canonical) (bytes : Bytes) :
    Yields (ofMsgpackBytes t bytes) fun v => v.Inhabits t := by
  unfold ofMsgpackBytes
  split
  · exact .error
  · split
    · exact (Value.ofMsgpack_placed [] ht _).yields
    · exact .error

/-- **What a payload decodes to is well-formed, and of the type that it was decoded for.** -/
theorem Payload.decode_inhabits {t : Ty} (ht : t.Canonical) (p : Option Payload) :
    Yields (decode t p) fun v => v.Inhabits t := by
  unfold decode
  split
  · exact .ok ⟨rfl, ht⟩
  · split
    · exact ofMsgpackBytes_inhabits ht _
    · split
      · split
        · exact .error
        · exact Value.ofJson_inhabits ht _
      · exact .error

theorem Payload.decode_wellFormed {t : Ty} (ht : t.Canonical) (p : Option Payload) :
    Yields (decode t p) Value.WellFormed :=
  fun v hv => (decode_inhabits ht p v hv).2

/-- **So is what saved state is read as.** -/
theorem RawState.unmarshal_inhabits {t : Ty} (ht : t.Canonical) (raw : RawState) :
    Yields (raw.unmarshal t) fun v => v.Inhabits t := by
  unfold unmarshal
  split
  · split
    · exact .ok ⟨rfl, ht⟩
    · exact .error
  · split
    · exact .error
    · exact Value.ofJson_inhabits ht _

theorem RawState.unmarshal_wellFormed {t : Ty} (ht : t.Canonical) (raw : RawState) :
    Yields (raw.unmarshal t) Value.WellFormed :=
  fun v hv => (unmarshal_inhabits ht raw v hv).2

end ProviderProtocol
