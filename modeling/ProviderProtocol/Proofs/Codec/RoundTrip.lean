import ProviderProtocol.Codec.Schema
import ProviderProtocol.Proofs.Codec.Read
import ProviderProtocol.Proofs.Msgpack.RoundTrip
/-!
# Payloads give back what was encoded

A well-formed value of the type is encoded, and its payload decodes to that very value (`payloads_round_trip`):
nothing is rounded, no unknown is lost and no set is reordered.  Two limits of the format stay: lengths below `2 ^ 32`
(`Value.Sized`), and a nesting of the type that the reader's budget covers; `Msgpack.depthBudget` covers 500 levels.
-/
namespace ProviderProtocol

/-! ## Nesting of a type -/

mutual

/-- How many collections, objects and tuples are nested in each other. -/
def Ty.depth : Ty → Nat
  | .string | .number | .bool => 0
  | .list t | .set t | .map t => t.depth + 1
  | .object attrs             => Ty.depthAttrs attrs + 1
  | .tuple elems              => Ty.depthElems elems + 1

def Ty.depthAttrs : List (String × Ty) → Nat
  | []             => 0
  | (_, t) :: rest => max t.depth (Ty.depthAttrs rest)

def Ty.depthElems : List Ty → Nat
  | []        => 0
  | t :: rest => max t.depth (Ty.depthElems rest)

end

theorem Ty.depth_le_depthAttrs : ∀ {attrs : List (String × Ty)}, ∀ a ∈ attrs, a.2.depth ≤ Ty.depthAttrs attrs
  | [], _, h               => by cases h
  | (k, t) :: attrs, a, h => by
    rw [Ty.depthAttrs]
    rcases List.mem_cons.1 h with rfl | h
    · exact Nat.le_max_left _ _
    · exact Nat.le_trans (Ty.depth_le_depthAttrs a h) (Nat.le_max_right _ _)

theorem Ty.depth_le_depthElems : ∀ {elems : List Ty}, ∀ t ∈ elems, t.depth ≤ Ty.depthElems elems
  | [], _, h          => by cases h
  | u :: elems, t, h => by
    rw [Ty.depthElems]
    rcases List.mem_cons.1 h with rfl | h
    · exact Nat.le_max_left _ _
    · exact Nat.le_trans (Ty.depth_le_depthElems t h) (Nat.le_max_right _ _)

namespace Value

theorem WellFormed.item_depth {t : Ty} {xs : List Value} (h : (Value.known t (.list xs)).WellFormed) :
    1 ≤ t.depth ∧ ∀ x ∈ xs, x.ty.depth + 1 ≤ t.depth := by
  rcases shapeFault?_list.1 h.2.1 with ⟨e, rfl | rfl, he⟩ | rfl
  · exact ⟨Nat.le_add_left _ _, fun x hx => Nat.le_of_eq (by rw [he x hx, Ty.depth])⟩
  · exact ⟨Nat.le_add_left _ _, fun x hx => Nat.le_of_eq (by rw [he x hx, Ty.depth])⟩
  · refine ⟨Nat.le_add_left _ _, fun x hx => ?_⟩
    rw [Ty.depth]
    exact Nat.succ_le_succ (Ty.depth_le_depthElems _ (List.mem_map_of_mem hx))

theorem WellFormed.entry_depth {t : Ty} {es : List (String × Value)} (h : (Value.known t (.map es)).WellFormed) :
    1 ≤ t.depth ∧ ∀ e ∈ es, e.2.ty.depth + 1 ≤ t.depth := by
  rcases (shapeFault?_map h.1 h.ascending).1 h.2.1 with ⟨u, rfl, hu⟩ | rfl
  · exact ⟨Nat.le_add_left _ _, fun e he => Nat.le_of_eq (by rw [hu e he, Ty.depth])⟩
  · refine ⟨Nat.le_add_left _ _, fun e he => ?_⟩
    rw [Ty.depth]
    exact Nat.succ_le_succ (Ty.depth_le_depthAttrs (e.1, e.2.ty) (List.mem_map_of_mem he))

end Value

/-! ## Values whose tree can be written -/

mutual

/-- Strings, keys, lists and maps within are shorter than `2 ^ 32`. -/
def Value.Sized : Value → Prop
  | .null _ | .unknown _ => True
  | .known _ c           => c.Sized

def Content.Sized : Content → Prop
  | .string s           => (Text.Utf8.encode s).length < 2 ^ 32
  | .number _ | .bool _ => True
  | .list xs            => xs.length < 2 ^ 32 ∧ Content.ItemsSized xs
  | .map es             => es.length < 2 ^ 32 ∧ Content.EntriesSized es

def Content.ItemsSized : List Value → Prop
  | []      => True
  | v :: vs => v.Sized ∧ Content.ItemsSized vs

def Content.EntriesSized : List (String × Value) → Prop
  | []           => True
  | (k, v) :: es => ((Text.Utf8.encode k).length < 2 ^ 32 ∧ v.Sized) ∧ Content.EntriesSized es

end

namespace Content

theorem itemsSized_iff : ∀ {xs : List Value}, ItemsSized xs ↔ ∀ x ∈ xs, x.Sized
  | []      => by simp [ItemsSized]
  | y :: ys => by rw [ItemsSized, itemsSized_iff, List.forall_mem_cons]

theorem entriesSized_iff : ∀ {es : List (String × Value)},
    EntriesSized es ↔ ∀ e ∈ es, (Text.Utf8.encode e.1).length < 2 ^ 32 ∧ e.2.Sized
  | []           => by simp [EntriesSized]
  | (k, y) :: es => by rw [EntriesSized, entriesSized_iff, List.forall_mem_cons]

theorem itemsToMsgpack_eq : ∀ xs : List Value, itemsToMsgpack xs = xs.map Value.toMsgpack
  | []      => rfl
  | y :: ys => by rw [itemsToMsgpack, itemsToMsgpack_eq ys, List.map_cons]

theorem entriesToMsgpack_eq : ∀ es : List (String × Value),
    entriesToMsgpack es = es.map fun e => (Msgpack.ofText e.1, e.2.toMsgpack)
  | []           => rfl
  | (k, y) :: es => by rw [entriesToMsgpack, entriesToMsgpack_eq es, List.map_cons]

end Content

namespace Value

theorem writable_toMsgpack (v : Value) (h : v.Sized) : v.toMsgpack.Writable := by
  induction v using Value.node_induction with
  | null t => trivial
  | unknown t => exact ⟨⟨by decide, by decide⟩, by decide⟩
  | string t s => exact h
  | number t n =>
    cases n with
    | int n fits => exact fits
    | float x => rfl
  | bool t b => trivial
  | list t xs ih =>
    obtain ⟨hlen, hxs⟩ := h
    show (Msgpack.array (Content.itemsToMsgpack xs)).Writable
    rw [Content.itemsToMsgpack_eq]
    refine ⟨by rwa [List.length_map], Msgpack.writableItems_iff.2 fun m hm => ?_⟩
    obtain ⟨x, hx, rfl⟩ := List.mem_map.1 hm
    exact ih x hx (Content.itemsSized_iff.1 hxs x hx)
  | map t es ih =>
    obtain ⟨hlen, hes⟩ := h
    show (Msgpack.map (Content.entriesToMsgpack es)).Writable
    rw [Content.entriesToMsgpack_eq]
    refine ⟨by rwa [List.length_map], Msgpack.writablePairs_iff.2 fun p hp => ?_⟩
    obtain ⟨e, he, rfl⟩ := List.mem_map.1 hp
    obtain ⟨hkey, hsized⟩ := Content.entriesSized_iff.1 hes e he
    exact ⟨hkey, ih e he hsized⟩

/-- Two units for each level of the type, and three for a string or an unknown at the end. -/
theorem height_toMsgpack (v : Value) (h : v.WellFormed) : v.toMsgpack.height ≤ 2 * v.ty.depth + 3 := by
  induction v using Value.node_induction with
  | null t => exact Nat.le_add_left _ _
  | unknown t => exact Nat.le_add_left _ _
  | string t s => exact Nat.le_add_left _ _
  | number t n => cases n <;> exact Nat.le_add_left _ _
  | bool t b => exact Nat.le_add_left _ _
  | list t xs ih =>
    obtain ⟨hpos, hdepth⟩ := h.item_depth
    have hi : Msgpack.heightItems (Content.itemsToMsgpack xs) ≤ 2 * t.depth + 1 := by
      rw [Content.itemsToMsgpack_eq, Msgpack.heightItems_le_iff]
      intro m hm
      obtain ⟨x, hx, rfl⟩ := List.mem_map.1 hm
      have hh := ih x hx (h.items x hx)
      have hd := hdepth x hx
      omega
    show 2 + Msgpack.heightItems (Content.itemsToMsgpack xs) ≤ 2 * t.depth + 3
    omega
  | map t es ih =>
    obtain ⟨hpos, hdepth⟩ := h.entry_depth
    have hi : Msgpack.heightPairs (Content.entriesToMsgpack es) ≤ 2 * t.depth + 1 := by
      rw [Content.entriesToMsgpack_eq, Msgpack.heightPairs_le_iff]
      intro p hp
      obtain ⟨e, he, rfl⟩ := List.mem_map.1 hp
      have hh := ih e he (h.entries e he)
      have hd := hdepth e he
      have hk : (Msgpack.ofText e.1).height = 3 := rfl
      show (Msgpack.ofText e.1).height ≤ _ ∧ e.2.toMsgpack.height ≤ _
      exact ⟨by omega, by omega⟩
    show 2 + Msgpack.heightPairs (Content.entriesToMsgpack es) ≤ 2 * t.depth + 3
    omega

/-! ## Reading back -/

theorem completed_entryTypes {es : List (String × Value)} (h : Table.Ascending es) :
    completed (entryTypes es) es = es := by
  unfold completed entryTypes
  rw [List.map_map]
  refine (List.map_congr_left fun e he => ?_).trans (List.map_id es)
  show (e.1, (Table.find? e.1 es).getD _) = e
  rw [Table.find?_of_mem h he]
  rfl

theorem keyOfMsgpack_ofText (path : Path) (t : Ty) (k : String) : keyOfMsgpack path t (.ofText k) = .ok k := by
  rw [Msgpack.ofText, keyOfMsgpack, Text.Utf8.decode?_encode]

theorem itemsOfMsgpack_toMsgpack (path : Path) (elem : Ty) : ∀ (i : Nat) (xs : List Value),
    (∀ x ∈ xs, ∀ p, ofMsgpack p elem x.toMsgpack = .ok x) →
      itemsOfMsgpack path elem i (Content.itemsToMsgpack xs) = .ok xs
  | _, [], _      => rfl
  | i, x :: xs, h => by
    obtain ⟨hx, hxs⟩ := List.forall_mem_cons.1 h
    rw [Content.itemsToMsgpack, itemsOfMsgpack, hx, itemsOfMsgpack_toMsgpack path elem (i + 1) xs hxs]
    rfl

theorem tupleOfMsgpack_toMsgpack (path : Path) : ∀ (i : Nat) (xs : List Value),
    (∀ x ∈ xs, ∀ p, ofMsgpack p x.ty x.toMsgpack = .ok x) →
      tupleOfMsgpack path i (xs.map Value.ty) (Content.itemsToMsgpack xs) = .ok xs
  | _, [], _      => rfl
  | i, x :: xs, h => by
    obtain ⟨hx, hxs⟩ := List.forall_mem_cons.1 h
    rw [Content.itemsToMsgpack, List.map_cons, tupleOfMsgpack, hx, tupleOfMsgpack_toMsgpack path (i + 1) xs hxs]
    rfl

theorem entriesOfMsgpack_toMsgpack (path : Path) (t elem : Ty) : ∀ es : List (String × Value),
    (∀ e ∈ es, ∀ p, ofMsgpack p elem e.2.toMsgpack = .ok e.2) →
      entriesOfMsgpack path t elem (Content.entriesToMsgpack es) = .ok es
  | [], _           => rfl
  | (k, x) :: es, h => by
    obtain ⟨hx, hes⟩ := List.forall_mem_cons.1 h
    rw [Content.entriesToMsgpack, entriesOfMsgpack, keyOfMsgpack_ofText]
    show (ofMsgpack (path ++ [.key k]) elem x.toMsgpack >>= _) = _
    rw [hx, entriesOfMsgpack_toMsgpack path t elem es hes]
    rfl

theorem attributesOfMsgpack_toMsgpack (path : Path) (t : Ty) (attrs : List (String × Ty)) :
    ∀ es : List (String × Value), (∀ e ∈ es, Table.find? e.1 attrs = some e.2.ty ∧
      ∀ p, ofMsgpack p e.2.ty e.2.toMsgpack = .ok e.2) →
      attributesOfMsgpack path t attrs (Content.entriesToMsgpack es) = .ok es
  | [], _           => rfl
  | (k, x) :: es, h => by
    obtain ⟨⟨hdeclared, hx⟩, hes⟩ := List.forall_mem_cons.1 h
    rw [Content.entriesToMsgpack, attributesOfMsgpack, keyOfMsgpack_ofText]
    dsimp only at hdeclared hx
    dsimp only [bind, Except.bind]
    rw [hdeclared]
    show (ofMsgpack (path ++ [.attribute k]) x.ty x.toMsgpack >>= _) = _
    rw [hx, attributesOfMsgpack_toMsgpack path t attrs es hes]
    rfl

/-- **A well-formed value is read back from its tree**, directed by its own type. -/
theorem ofMsgpack_toMsgpack (v : Value) (h : v.WellFormed) (path : Path) :
    ofMsgpack path v.ty v.toMsgpack = .ok v := by
  induction v using Value.node_induction generalizing path with
  | null t => rfl
  | unknown t => rfl
  | string t s =>
    obtain rfl := shapeFault?_string.1 h.2.1
    show ofMsgpack path .string (.string (Text.Utf8.encode s)) = _
    rw [ofMsgpack, Text.Utf8.decode?_encode]
    rfl
  | number t n =>
    obtain rfl := shapeFault?_number.1 h.2.1
    cases n with
    | int n fits =>
      show ofMsgpack path .number (.int n) = _
      rw [ofMsgpack, Number.ofInt?, dif_pos fits]
      rfl
    | float x => rfl
  | bool t b =>
    obtain rfl := shapeFault?_bool.1 h.2.1
    rfl
  | list t xs ih =>
    have hread := ofRead_of_shape h.2.1
    have hitems : ∀ x ∈ xs, ∀ p, ofMsgpack p x.ty x.toMsgpack = .ok x := fun x hx => ih x hx (h.items x hx)
    rcases shapeFault?_list.1 h.2.1 with ⟨e, rfl | rfl, he⟩ | rfl
    · show (itemsOfMsgpack path e 0 (Content.itemsToMsgpack xs) >>= _) = _
      rw [itemsOfMsgpack_toMsgpack path e 0 xs fun x hx => he x hx ▸ hitems x hx]
      exact hread
    · show (itemsOfMsgpack path e 0 (Content.itemsToMsgpack xs) >>= _) = _
      rw [itemsOfMsgpack_toMsgpack path e 0 xs fun x hx => he x hx ▸ hitems x hx]
      exact hread
    · show (if (xs.map Value.ty).length = (Content.itemsToMsgpack xs).length then
        tupleOfMsgpack path 0 (xs.map Value.ty) (Content.itemsToMsgpack xs) >>= _ else _) = _
      rw [if_pos (by rw [Content.itemsToMsgpack_eq, List.length_map, List.length_map]),
        tupleOfMsgpack_toMsgpack path 0 xs hitems]
      exact hread
  | map t es ih =>
    have hread := ofRead_of_shape h.2.1
    have hasc := h.ascending
    have hentries : ∀ e ∈ es, ∀ p, ofMsgpack p e.2.ty e.2.toMsgpack = .ok e.2 := fun e he => ih e he (h.entries e he)
    rcases (shapeFault?_map h.1 hasc).1 h.2.1 with ⟨u, rfl, hu⟩ | rfl
    · show (entriesOfMsgpack path (.map u) u (Content.entriesToMsgpack es) >>= _) = _
      rw [entriesOfMsgpack_toMsgpack path (.map u) u es fun e he => hu e he ▸ hentries e he]
      show ofRead (.map u) (.map (Table.ofList es)) = _
      rw [Table.ofList_of_ascending hasc]
      exact hread
    · show (attributesOfMsgpack path (.object (entryTypes es)) (entryTypes es) (Content.entriesToMsgpack es) >>= _) = _
      have hdeclared : ∀ e ∈ es, Table.find? e.1 (entryTypes es) = some e.2.ty := fun e he => by
        rw [entryTypes, Table.find?_map, Table.find?_of_mem hasc he]
        rfl
      rw [attributesOfMsgpack_toMsgpack path _ _ es fun e he => ⟨hdeclared e he, hentries e he⟩]
      show ofRead _ (.map (completed (entryTypes es) (Table.ofList es))) = _
      rw [Table.ofList_of_ascending hasc, completed_entryTypes hasc]
      exact hread

end Value

/-! ## Payloads -/

/-- Encoding succeeds exactly on what conforms, and what it makes decodes to the original. -/
def RoundTrips (encoded : Except ProviderError π) (decode : π → Except ProviderError α) (conforms : Prop) (a : α) :
    Prop :=
  ((∃ p, encoded = .ok p) ↔ conforms) ∧ ∀ p, encoded = .ok p → decode p = .ok a

theorem RoundTrips.of_ok {encoded : Except ProviderError π} {decode : π → Except ProviderError α} {conforms : Prop}
    {a : α} {p : π} (hc : conforms) (he : encoded = .ok p) (hd : decode p = .ok a) :
    RoundTrips encoded decode conforms a := by
  refine ⟨⟨fun _ => hc, fun _ => ⟨p, he⟩⟩, fun q hq => ?_⟩
  rw [he] at hq
  cases hq
  exact hd

theorem RoundTrips.of_error {encoded : Except ProviderError π} {decode : π → Except ProviderError α}
    {conforms : Prop} {a : α} {e : ProviderError} (hc : ¬ conforms) (he : encoded = .error e) :
    RoundTrips encoded decode conforms a := by
  refine ⟨⟨?_, fun h => absurd h hc⟩, ?_⟩
  · rintro ⟨p, hp⟩
    rw [he] at hp
    cases hp
  · intro p hp
    rw [he] at hp
    cases hp

namespace Payload

theorem ofMsgpackBytes_write {v : Value} (hd : v.ty.depth ≤ 500) (hv : v.WellFormed) (hs : v.Sized) :
    ofMsgpackBytes v.ty v.toMsgpack.write = .ok v := by
  have hh : v.toMsgpack.height ≤ Msgpack.depthBudget := by
    have := v.height_toMsgpack hv
    unfold Msgpack.depthBudget
    omega
  have hr := Msgpack.read?_write v.toMsgpack Msgpack.depthBudget [] (v.writable_toMsgpack hs) hh
  rw [List.append_nil] at hr
  rw [ofMsgpackBytes, hr]
  exact v.ofMsgpack_toMsgpack hv []

theorem decode_msgpack {t : Ty} {bytes : Bytes} (h : bytes ≠ []) :
    decode t (some ⟨bytes, []⟩) = ofMsgpackBytes t bytes := by
  cases bytes with
  | nil       => exact absurd rfl h
  | cons b bs => rfl

theorem encode_roundTrips {t : Ty} {v : Value} (hd : t.depth ≤ 500) (hv : v.WellFormed) (hs : v.Sized) :
    RoundTrips (encode t v) (fun p => decode t (some p)) (v.ty = t) v := by
  by_cases ht : v.ty = t
  · subst ht
    refine .of_ok rfl (if_pos rfl) ?_
    rw [decode_msgpack (Msgpack.write_ne_nil (v.writable_toMsgpack hs))]
    exact ofMsgpackBytes_write hd hv hs
  · exact .of_error ht (if_neg ht)

end Payload

theorem IdentityPayload.encodeFor_roundTrips {s : IdentitySchema} {v : Option Value} (hd : s.valueType.depth ≤ 500)
    (hv : ∀ x ∈ v, x.WellFormed ∧ x.Sized) :
    RoundTrips (encodeFor (some s) v) (decodeFor (some s)) (∀ x ∈ v, x.ty = s.valueType) v := by
  cases v with
  | none   => exact .of_ok (fun _ h => by cases h) rfl rfl
  | some x =>
    obtain ⟨hwf, hsized⟩ := hv x rfl
    obtain ⟨hiff, hback⟩ := Payload.encode_roundTrips hd hwf hsized
    by_cases ht : x.ty = s.valueType
    · obtain ⟨p, hp⟩ := hiff.2 ht
      refine .of_ok (p := some ⟨some p⟩) (fun y hy => by cases hy; exact ht) ?_ ?_
      · rw [encodeFor, hp]; rfl
      · show (Payload.decode s.valueType (some p)).map some = _
        rw [show Payload.decode s.valueType (some p) = .ok x from hback p hp]
        rfl
    · refine .of_error (fun h => ht (h x rfl)) (e := .encode (.type x.ty s.valueType)) ?_
      rw [encodeFor, Payload.encode, if_neg ht]
      rfl

/-- **Payloads give back what was encoded**: against a type, against a schema, and for identities, where an absent one
and one that is present but null stay apart.  An absent identity needs no schema. -/
theorem payloads_round_trip :
    (∀ (t : Ty) (v : Value), t.depth ≤ 500 → v.WellFormed → v.Sized →
      RoundTrips (Payload.encode t v) (fun p => Payload.decode t (some p)) (v.ty = t) v) ∧
    (∀ (s : Schema) (v : Value), s.valueType.depth ≤ 500 → v.WellFormed → v.Sized →
      RoundTrips (Payload.encodeFor (some s) v) (fun p => Payload.decodeFor (some s) (some p))
        (v.ty = s.valueType) v) ∧
    (∀ (s : IdentitySchema) (v : Option Value), s.valueType.depth ≤ 500 → (∀ x ∈ v, x.WellFormed ∧ x.Sized) →
      RoundTrips (IdentityPayload.encodeFor (some s) v) (IdentityPayload.decodeFor (some s))
        (∀ x ∈ v, x.ty = s.valueType) v) ∧
    (∀ s : Option IdentitySchema,
      IdentityPayload.encodeFor s none = .ok none ∧ IdentityPayload.decodeFor s none = .ok none) :=
  ⟨fun _ _ hd hv hs => Payload.encode_roundTrips hd hv hs, fun _ _ hd hv hs => Payload.encode_roundTrips hd hv hs,
    fun _ _ hd hv => IdentityPayload.encodeFor_roundTrips hd hv, fun _ => ⟨rfl, rfl⟩⟩

def endpointSchema : Schema :=
  ((Schema.new 0).addAttribute "id" (.computed .string)).addAttribute "ports" (.optional (.set .number))

def endpointIdentity : IdentitySchema :=
  ((IdentitySchema.new 0).addAttribute "id" ⟨.string, .requiredForImport, none⟩).addAttribute "ports"
    ⟨.set .number, .optionalForImport, none⟩

/-- An unknown, and a set of a null, the largest integer and the negative zero. -/
def endpoint : Value :=
  .known (.object [("id", .string), ("ports", .set .number)])
    (.map [("id", .unknown .string),
      ("ports", .known (.set .number)
        (.list [.null .number, .ofNumber (.int 18446744073709551615 (by decide)),
          .ofNumber (.float (.zero true))]))])

theorem endpoint_sized : endpoint.Sized :=
  ⟨by decide, ⟨by decide, trivial⟩, ⟨by decide, by decide, trivial, trivial, trivial, trivial⟩, trivial⟩

theorem payloads_round_trip_endpoint :
    endpoint.WellFormed ∧ endpoint.Sized ∧
    RoundTrips (Payload.encode endpoint.ty endpoint) (fun p => Payload.decode endpoint.ty (some p))
      (endpoint.ty = endpoint.ty) endpoint ∧
    RoundTrips (Payload.encodeFor (some endpointSchema) endpoint)
      (fun p => Payload.decodeFor (some endpointSchema) (some p)) (endpoint.ty = endpointSchema.valueType) endpoint ∧
    RoundTrips (IdentityPayload.encodeFor (some endpointIdentity) (some endpoint))
      (IdentityPayload.decodeFor (some endpointIdentity)) (∀ x ∈ some endpoint, x.ty = endpointIdentity.valueType)
      (some endpoint) := by
  have hwf : endpoint.WellFormed := by decide
  obtain ⟨typed, schema, identity, -⟩ := payloads_round_trip
  refine ⟨hwf, endpoint_sized, typed _ _ (by decide) hwf endpoint_sized, schema _ _ (by decide) hwf endpoint_sized,
    identity _ _ (by decide) fun x hx => ?_⟩
  cases hx
  exact ⟨hwf, endpoint_sized⟩

end ProviderProtocol
