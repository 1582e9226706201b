import ProviderProtocol.Error
import ProviderProtocol.Proofs.Json.Value
import ProviderProtocol.Proofs.Postcondition
/-!
# Descriptors of types

Every type is read back from its descriptor (`ofDescriptor_descriptor`), and what is read as a type is the descriptor of
that type and nothing else (`descriptor_of_ofDescriptor`).  So a type that is read from text is canonical and is read
back from its own text (`ofDescriptorBytes_eq_ok`, `ofDescriptorBytes_descriptorBytes`), and two types never share a
descriptor (`descriptor_injective`).
-/
namespace ProviderProtocol.Ty

open Json (depthLimit)

/-! ## Types and descriptors -/

mutual

theorem ofDescriptor_descriptor : ∀ t : Ty, ofDescriptor t.descriptor = .ok t
  | .string       => rfl
  | .number       => rfl
  | .bool         => rfl
  | .list t       => by rw [descriptor, ofDescriptor, ofDescriptor_descriptor t]; rfl
  | .set t        => by rw [descriptor, ofDescriptor, ofDescriptor_descriptor t]; rfl
  | .map t        => by rw [descriptor, ofDescriptor, ofDescriptor_descriptor t]; rfl
  | .object attrs => by rw [descriptor, ofDescriptor, ofDescriptorMembers_descriptorAttrs attrs]; rfl
  | .tuple elems  => by rw [descriptor, ofDescriptor, ofDescriptorItems_descriptorElems elems]; rfl

theorem ofDescriptorMembers_descriptorAttrs : ∀ attrs : List (String × Ty),
    ofDescriptorMembers (descriptorAttrs attrs) = .ok attrs
  | []                 => rfl
  | (name, t) :: attrs => by
    rw [descriptorAttrs, ofDescriptorMembers, ofDescriptor_descriptor t, ofDescriptorMembers_descriptorAttrs attrs]
    rfl

theorem ofDescriptorItems_descriptorElems : ∀ elems : List Ty, ofDescriptorItems (descriptorElems elems) = .ok elems
  | []         => rfl
  | t :: elems => by
    rw [descriptorElems, ofDescriptorItems, ofDescriptor_descriptor t, ofDescriptorItems_descriptorElems elems]
    rfl

end

mutual

theorem descriptor_of_ofDescriptor {j : Json} {t : Ty} (h : ofDescriptor j = .ok t) : t.descriptor = j := by
  unfold ofDescriptor at h
  split at h
  · split at h <;> cases h <;> rfl
  · obtain ⟨u, hu, rfl⟩ := map_eq_ok.1 h
    rw [descriptor, descriptor_of_ofDescriptor hu]
  · obtain ⟨u, hu, rfl⟩ := map_eq_ok.1 h
    rw [descriptor, descriptor_of_ofDescriptor hu]
  · obtain ⟨u, hu, rfl⟩ := map_eq_ok.1 h
    rw [descriptor, descriptor_of_ofDescriptor hu]
  · split at h
    · obtain ⟨attrs, hattrs, rfl⟩ := map_eq_ok.1 h
      rw [descriptor, descriptorAttrs_of_ofDescriptorMembers hattrs]
    · cases h
  · split at h
    · obtain ⟨elems, helems, rfl⟩ := map_eq_ok.1 h
      rw [descriptor, descriptorElems_of_ofDescriptorItems helems]
    · cases h
  · cases h
  · cases h
  · cases h
termination_by sizeOf j

theorem descriptorAttrs_of_ofDescriptorMembers {ms : List (String × Json)} {attrs : List (String × Ty)}
    (h : ofDescriptorMembers ms = .ok attrs) : descriptorAttrs attrs = ms := by
  match ms with
  | []              =>
    cases h
    rfl
  | (name, j) :: ms =>
    rw [ofDescriptorMembers] at h
    obtain ⟨t, ht, h⟩ := bind_eq_ok.1 h
    obtain ⟨ts, hts, h⟩ := bind_eq_ok.1 h
    cases h
    rw [descriptorAttrs, descriptor_of_ofDescriptor ht, descriptorAttrs_of_ofDescriptorMembers hts]
termination_by sizeOf ms

theorem descriptorElems_of_ofDescriptorItems {js : List Json} {elems : List Ty}
    (h : ofDescriptorItems js = .ok elems) : descriptorElems elems = js := by
  match js with
  | []      =>
    cases h
    rfl
  | j :: js =>
    rw [ofDescriptorItems] at h
    obtain ⟨t, ht, h⟩ := bind_eq_ok.1 h
    obtain ⟨ts, hts, h⟩ := bind_eq_ok.1 h
    cases h
    rw [descriptorElems, descriptor_of_ofDescriptor ht, descriptorElems_of_ofDescriptorItems hts]
termination_by sizeOf js

end

/-- What is read as a type is its descriptor, and nothing else is. -/
theorem ofDescriptor_eq_ok_iff {j : Json} {t : Ty} : ofDescriptor j = .ok t ↔ t.descriptor = j := by
  constructor
  · exact descriptor_of_ofDescriptor
  · rintro rfl
    exact ofDescriptor_descriptor t

theorem descriptor_injective : Function.Injective descriptor := by
  intro t u h
  have hread : ofDescriptor u.descriptor = .ok t := ofDescriptor_eq_ok_iff.2 h
  rw [ofDescriptor_descriptor] at hread
  cases hread
  rfl

/-! ## Descriptors as JSON values -/

mutual

theorem integral_descriptor : ∀ t : Ty, t.descriptor.Integral
  | .string | .number | .bool => trivial
  | .list t | .set t | .map t => ⟨trivial, integral_descriptor t, trivial⟩
  | .object attrs             => ⟨trivial, integral_descriptorAttrs attrs, trivial⟩
  | .tuple elems              => ⟨trivial, integral_descriptorElems elems, trivial⟩

theorem integral_descriptorAttrs : ∀ attrs : List (String × Ty), Json.MembersIntegral (descriptorAttrs attrs)
  | []              => trivial
  | (_, t) :: attrs => ⟨integral_descriptor t, integral_descriptorAttrs attrs⟩

theorem integral_descriptorElems : ∀ elems : List Ty, Json.ItemsIntegral (descriptorElems elems)
  | []         => trivial
  | t :: elems => ⟨integral_descriptor t, integral_descriptorElems elems⟩

end

theorem names_descriptorAttrs : ∀ attrs : List (String × Ty), Table.names (descriptorAttrs attrs) = Table.names attrs
  | []                 => rfl
  | (name, _) :: attrs => congrArg (name :: ·) (names_descriptorAttrs attrs)

mutual

/-- The descriptors of canonical types are those without repeated or disordered members. -/
theorem tabular_descriptor_iff : ∀ t : Ty, t.descriptor.Tabular ↔ t.Canonical
  | .string | .number | .bool => Iff.rfl
  | .list t | .set t | .map t => by
    simp only [descriptor, Json.Tabular, Json.ItemsTabular, Canonical, true_and, and_true]
    exact tabular_descriptor_iff t
  | .object attrs             => by
    simp only [descriptor, Json.Tabular, Json.ItemsTabular, Canonical, true_and, and_true]
    have hnames := names_descriptorAttrs attrs
    exact and_congr ⟨Table.ascending_of_names_eq hnames, Table.ascending_of_names_eq hnames.symm⟩
      (tabular_descriptorAttrs_iff attrs)
  | .tuple elems              => by
    simp only [descriptor, Json.Tabular, Json.ItemsTabular, Canonical, true_and, and_true]
    exact tabular_descriptorElems_iff elems

theorem tabular_descriptorAttrs_iff : ∀ attrs : List (String × Ty),
    Json.MembersTabular (descriptorAttrs attrs) ↔ CanonicalAttrs attrs
  | []              => Iff.rfl
  | (_, t) :: attrs => and_congr (tabular_descriptor_iff t) (tabular_descriptorAttrs_iff attrs)

theorem tabular_descriptorElems_iff : ∀ elems : List Ty,
    Json.ItemsTabular (descriptorElems elems) ↔ CanonicalElems elems
  | []         => Iff.rfl
  | t :: elems => and_congr (tabular_descriptor_iff t) (tabular_descriptorElems_iff elems)

end

/-! ## Descriptors as bytes -/

theorem ofBytes?_descriptorBytes {t : Ty} (ht : t.Canonical) (hd : t.descriptor.depth ≤ depthLimit) :
    Json.ofBytes? t.descriptorBytes = some t.descriptor :=
  Json.ofBytes?_text (integral_descriptor t) ((tabular_descriptor_iff t).2 ht) hd

/-- **A canonical type is read back from its bytes**, unless it is nested too deep to be read at all. -/
theorem ofDescriptorBytes_descriptorBytes {t : Ty} (ht : t.Canonical) (hd : t.descriptor.depth ≤ depthLimit) :
    ofDescriptorBytes t.descriptorBytes = .ok t := by
  unfold ofDescriptorBytes
  rw [ofBytes?_descriptorBytes ht hd]
  exact mapError_eq_ok.2 (ofDescriptor_descriptor t)

theorem ofDescriptorBytes_eq_ok {bytes : Bytes} {t : Ty} (h : ofDescriptorBytes bytes = .ok t) :
    t.Canonical ∧ t.descriptor.depth ≤ depthLimit := by
  unfold ofDescriptorBytes at h
  split at h
  · cases h
  · rename_i j hj
    have hread : t.descriptor = j := descriptor_of_ofDescriptor (mapError_eq_ok.1 h)
    obtain ⟨htabular, hdepth⟩ := Json.ofBytes?_eq_some hj
    rw [← hread] at htabular hdepth
    exact ⟨(tabular_descriptor_iff t).1 htabular, hdepth⟩

theorem ofDescriptorBytes_descriptorBytes_iff {t : Ty} (ht : t.Canonical) :
    ofDescriptorBytes t.descriptorBytes = .ok t ↔ t.descriptor.depth ≤ depthLimit :=
  ⟨fun h => (ofDescriptorBytes_eq_ok h).2, ofDescriptorBytes_descriptorBytes ht⟩

/-- **Types are read from their descriptors exactly.**  A type is read from its descriptor, whatever is read as a type
is the descriptor of that type, and so the descriptors are what is accepted, one for each type.  The attributes of a
type that is read have the order of the members.  From its bytes a type is read if its descriptor is at most 127 levels
deep, and from no deeper one. -/
theorem descriptors_are_read_exactly :
    (∀ t : Ty, ofDescriptor t.descriptor = .ok t) ∧
    (∀ (j : Json) (t : Ty), ofDescriptor j = .ok t → t.descriptor = j) ∧
    (∀ j : Json, (∃ t, ofDescriptor j = .ok t) ↔ ∃ t : Ty, t.descriptor = j) ∧
    Function.Injective descriptor ∧
    (∀ (j k : Json) (t : Ty), ofDescriptor j = .ok t → ofDescriptor k = .ok t → j = k) ∧
    (∀ (j : Json) (t : Ty), ofDescriptor j = .ok t → (j.Tabular ↔ t.Canonical)) ∧
    (∀ t : Ty, t.Canonical → (ofDescriptorBytes t.descriptorBytes = .ok t ↔ t.descriptor.depth ≤ 127)) := by
  refine ⟨ofDescriptor_descriptor, fun j t => descriptor_of_ofDescriptor, fun j => ?_, descriptor_injective,
    fun j k t hj hk => ?_, fun j t h => ?_, fun t => ofDescriptorBytes_descriptorBytes_iff⟩
  · exact exists_congr fun t => ofDescriptor_eq_ok_iff
  · rw [← ofDescriptor_eq_ok_iff.1 hj, ← ofDescriptor_eq_ok_iff.1 hk]
  · rw [← ofDescriptor_eq_ok_iff.1 h]
    exact tabular_descriptor_iff t

/-- A list of lists, so many times. -/
def tower : Nat → Ty
  | 0     => string
  | n + 1 => list (tower n)

theorem canonical_tower : ∀ n, (tower n).Canonical
  | 0     => trivial
  | n + 1 => canonical_tower n

/-- The type of a parcel with all kinds of parts, and towers at the limit and above it. -/
theorem descriptors_are_read_exactly_parcel :
    let parcel := object [("label", string), ("size", tuple [number, number, bool]), ("stops", map (list (set string)))]
    ofDescriptor parcel.descriptor = .ok parcel ∧ parcel.Canonical ∧
    ofDescriptorBytes parcel.descriptorBytes = .ok parcel ∧
    ofDescriptorBytes (tower 127).descriptorBytes = .ok (tower 127) ∧
    ofDescriptorBytes (tower 128).descriptorBytes ≠ .ok (tower 128) := by
  obtain ⟨read, _, _, _, _, order, bytes⟩ := descriptors_are_read_exactly
  intro parcel
  have hread : ofDescriptor parcel.descriptor = .ok parcel := read parcel
  have hcanonical : parcel.Canonical := by
    refine (order parcel.descriptor parcel hread).1 ⟨trivial, ⟨?_, ?_⟩, trivial⟩
    · show (["label", "size", "stops"] : List String).Pairwise (· < ·)
      decide +kernel
    · simp [descriptorAttrs, descriptor, descriptorElems, Json.MembersTabular, Json.Tabular, Json.ItemsTabular]
  refine ⟨hread, hcanonical, (bytes parcel hcanonical).2 (by decide +kernel), ?_, ?_⟩
  · exact (bytes (tower 127) (canonical_tower 127)).2 (by decide +kernel)
  · exact mt (bytes (tower 128) (canonical_tower 128)).1 (by decide +kernel)

end ProviderProtocol.Ty
