import ProviderProtocol.Codec.Schema
import ProviderProtocol.Proofs.Codec.Payload
import ProviderProtocol.Proofs.Schema.ValueType
/-!
# Payloads against well-formed schemas

The value type of a well-formed schema is canonical, so whatever is decoded against the schema is a well-formed value of
that type.
-/
namespace ProviderProtocol

/-! ## Value types are canonical -/

theorem Ty.ofAttributes_canonical {attrs : List (String × Ty)} (h : ∀ a ∈ attrs, a.2.Canonical) :
    (ofAttributes attrs).Canonical :=
  ⟨Table.ofList_ascending attrs, canonicalAttrs_iff.2 fun a ha => h a (Table.mem_of_mem_ofList ha)⟩

theorem Nesting.wrap_canonical (n : Nesting) {t : Ty} (h : t.Canonical) : (n.wrap t).Canonical := by
  unfold wrap
  split <;> exact h

namespace Block

mutual

theorem valueType_canonical : ∀ b : Block, b.Throughout Regular → b.valueType.Canonical
  | ⟨attributes, blocks, description, deprecated⟩, h => by
    obtain ⟨⟨_, _, htypes⟩, hinside⟩ := h
    rw [valueType]
    refine Ty.ofAttributes_canonical fun a ha => ?_
    rcases List.mem_append.1 ha with ha | ha
    · rw [attributeTypes_eq] at ha
      obtain ⟨e, he, rfl⟩ := List.mem_map.1 ha
      exact htypes e he
    · exact blockTypes_canonical blocks hinside a ha

theorem blockTypes_canonical : ∀ blocks : List (String × Nesting × Block), ThroughoutBlocks Regular blocks →
    ∀ a ∈ blockTypes blocks, a.2.Canonical
  | [], _, a, ha                             => by cases ha
  | (name, nesting, inner) :: rest, h, a, ha => by
    obtain ⟨hinner, hrest⟩ := h
    rcases List.mem_cons.1 ha with rfl | ha
    · exact nesting.wrap_canonical (valueType_canonical inner hinner)
    · exact blockTypes_canonical rest hrest a ha

end

end Block

theorem Schema.WellFormed.valueType_canonical {s : Schema} (h : s.WellFormed) : s.valueType.Canonical :=
  s.block.valueType_canonical h

theorem IdentitySchema.WellFormed.valueType_canonical {s : IdentitySchema} (h : s.WellFormed) :
    s.valueType.Canonical := by
  refine Ty.ofAttributes_canonical fun a ha => ?_
  obtain ⟨e, he, rfl⟩ := List.mem_map.1 ha
  exact h.2 e he

/-! ## Decoded values -/

/-- Without a schema nothing is decoded. -/
theorem Payload.decodeFor_eq_ok {schema : Option Schema} {p : Option Payload} {v : Value} :
    decodeFor schema p = .ok v ↔ ∃ s, schema = some s ∧ decode s.valueType p = .ok v := by
  cases schema with
  | none   => exact ⟨nofun, fun ⟨_, h, _⟩ => nomatch h⟩
  | some s =>
    constructor
    · exact fun h => ⟨s, rfl, h⟩
    · rintro ⟨_, he, h⟩
      cases he
      exact h

theorem Payload.decodeFor_inhabits {s : Schema} (hs : s.WellFormed) (p : Option Payload) :
    Yields (decodeFor (some s) p) fun v => v.Inhabits s.valueType :=
  decode_inhabits hs.valueType_canonical p

/-- An identity that is there was decoded against a schema. -/
theorem IdentityPayload.decodeFor_eq_some {schema : Option IdentitySchema} {p : Option IdentityPayload} {v : Value}
    (h : decodeFor schema p = .ok (some v)) : ∃ s q, schema = some s ∧ Payload.decode s.valueType q = .ok v := by
  cases p with
  | none   => cases h
  | some p =>
    cases schema with
    | none   => cases h
    | some s =>
      obtain ⟨w, hw, he⟩ := map_eq_ok.1 h
      cases he
      exact ⟨s, p.data, rfl, hw⟩

theorem IdentityPayload.decodeFor_inhabits {schema : Option IdentitySchema} {p : Option IdentityPayload}
    {v : Value} (hi : ∀ s, schema = some s → s.WellFormed) (h : decodeFor schema p = .ok (some v)) :
    ∃ s, schema = some s ∧ v.Inhabits s.valueType := by
  obtain ⟨s, q, rfl, hdecode⟩ := decodeFor_eq_some h
  exact ⟨s, rfl, Payload.decode_inhabits (hi s rfl).valueType_canonical q v hdecode⟩

end ProviderProtocol
