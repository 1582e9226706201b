import ProviderProtocol.Proofs.Schema.Message
import ProviderProtocol.Proofs.Schema.WellFormed
import ProviderProtocol.Proofs.Ty.Descriptor
import ProviderProtocol.Schema.Equality
/-!
# Schemas over the wire

The wire form cannot tell an empty description from an absent one, and a type nested too deep in its descriptor cannot
be read again.  A schema with neither (`Block.FitsWire`) comes back from the wire as it was, to the order of attributes
and blocks at every depth (`Block.ofWire_toWire`).  Every schema that comes from the wire is such a one
(`Block.ofWirePart_eq_ok`), whatever the message was.
-/
namespace ProviderProtocol

open Json (depthLimit)

/-- The description is told from an absent one, and the type can be read again. -/
def Attribute.FitsWire (a : Attribute) : Prop := a.description ≠ some "" ∧ a.ty.descriptor.depth ≤ depthLimit

def IdentityAttribute.FitsWire (a : IdentityAttribute) : Prop :=
  a.description ≠ some "" ∧ a.ty.descriptor.depth ≤ depthLimit

def Block.FitsWire (b : Block) : Prop := b.description ≠ some "" ∧ ∀ a ∈ b.attributes, a.2.FitsWire

def Schema.FitsWire (s : Schema) : Prop := s.block.Throughout Block.FitsWire

def IdentitySchema.FitsWire (s : IdentitySchema) : Prop := ∀ a ∈ s.attributes, a.2.FitsWire

instance (a : Attribute) : Decidable a.FitsWire :=
  inferInstanceAs (Decidable (a.description ≠ some "" ∧ a.ty.descriptor.depth ≤ depthLimit))

instance (a : IdentityAttribute) : Decidable a.FitsWire :=
  inferInstanceAs (Decidable (a.description ≠ some "" ∧ a.ty.descriptor.depth ≤ depthLimit))

instance : DecidablePred Block.FitsWire := fun b =>
  inferInstanceAs (Decidable (b.description ≠ some "" ∧ ∀ a ∈ b.attributes, a.2.FitsWire))

instance (s : Schema) : Decidable s.FitsWire := inferInstanceAs (Decidable (s.block.Throughout Block.FitsWire))

instance (s : IdentitySchema) : Decidable s.FitsWire := inferInstanceAs (Decidable (∀ a ∈ s.attributes, a.2.FitsWire))

/-! ## Parts of a schema -/

theorem textOfWire_getD {text : Option String} (h : text ≠ some "") : textOfWire (text.getD "") = text := by
  cases text with
  | none   => rfl
  | some s => exact if_neg fun hs => h (congrArg some hs)

theorem textOfWire_ne (s : String) : textOfWire s ≠ some "" := by
  unfold textOfWire
  split
  · exact nofun
  · rename_i h
    exact fun he => h (Option.some.inj he)

theorem Attribute.ofWire_toWire (name : String) {a : Attribute} (ht : a.ty.Canonical) (hfits : a.FitsWire) :
    Attribute.ofWire (a.toWire name) = .ok a :=
  Attribute.ofWire_eq_ok_iff.2 ⟨Ty.ofDescriptorBytes_descriptorBytes ht hfits.2, rfl, rfl, rfl, rfl, rfl,
    (textOfWire_getD hfits.1).symm⟩

theorem WireAttribute.Means.fitsWire {w : WireAttribute} {a : Attribute} (h : w.Means a) :
    a.ty.Canonical ∧ a.FitsWire := by
  obtain ⟨hcanonical, hdepth⟩ := Ty.ofDescriptorBytes_eq_ok h.ty
  exact ⟨hcanonical, h.description ▸ textOfWire_ne _, hdepth⟩

theorem Nesting.ofWire_toWire (name : String) (n : Nesting) : Nesting.ofWire (n.toWire name) = .ok n :=
  Nesting.ofWire_eq_ok_iff.2 ⟨rfl, rfl, rfl⟩

/-! ## Blocks -/

theorem attributesOfWire_toWire {as : List (String × Attribute)} (ht : ∀ a ∈ as, a.2.ty.Canonical)
    (hfits : ∀ a ∈ as, a.2.FitsWire) : attributesOfWire (as.map fun (name, a) => a.toWire name) = .ok as := by
  refine attributesOfWire_eq_ok_iff.2 (List.forall₂_map_left_iff.2 (List.forall₂_same.2 fun a ha => ⟨rfl, ?_⟩))
  exact Attribute.ofWire_eq_ok_iff.1 (Attribute.ofWire_toWire a.1 (ht a ha) (hfits a ha))

theorem tableOfWire_of_nodup {t : List (String × α)} (h : (Table.names t).Nodup) : tableOfWire t = t :=
  Table.putAll_of_nodup (t := []) h

theorem nodup_names_tableOfWire (definitions : List (String × α)) : (Table.names (tableOfWire definitions)).Nodup :=
  Table.nodup_names_putAll definitions (t := []) List.nodup_nil

theorem mem_of_mem_tableOfWire {definitions : List (String × α)} {e : String × α} (h : e ∈ tableOfWire definitions) :
    e ∈ definitions :=
  (Table.mem_of_mem_putAll (t := []) h).resolve_left List.not_mem_nil

namespace Block

mutual

theorem ofWire_toWire (version : Int64) : ∀ {b : Block}, b.Throughout Regular → b.Throughout FitsWire →
    ofWire (b.toWire version) = .ok b
  | ⟨attributes, blocks, description, deprecated⟩, ⟨⟨hattrs, hblocks, htypes⟩, hinside⟩,
      ⟨⟨htext, hfits⟩, hfitsInside⟩ => by
    rw [toWire, ofWire, attributesOfWire_toWire htypes hfits, blocksOfWire_blocksToWire version hinside hfitsInside]
    show Except.ok (Block.mk (tableOfWire attributes) (tableOfWire blocks) (textOfWire (description.getD ""))
      deprecated) = _
    rw [tableOfWire_of_nodup hattrs, tableOfWire_of_nodup hblocks, textOfWire_getD htext]

theorem blocksOfWire_blocksToWire (version : Int64) : ∀ {bs : List (String × Nesting × Block)},
    ThroughoutBlocks Regular bs → ThroughoutBlocks FitsWire bs → blocksOfWire (blocksToWire version bs) = .ok bs
  | [], _, _                                                       => rfl
  | (name, nesting, inner) :: rest, ⟨hinner, hrest⟩, ⟨hfits, hfitsRest⟩ => by
    rw [blocksToWire, blocksOfWire, Nesting.ofWire_toWire]
    show (do
      let b ← ofWire (inner.toWire version)
      let bs ← blocksOfWire (blocksToWire version rest)
      pure ((name, nesting, b) :: bs)) = _
    rw [ofWire_toWire version hinner hfits, blocksOfWire_blocksToWire version hrest hfitsRest]
    rfl

end

theorem empty_fitsWire : empty.Throughout FitsWire :=
  throughout_iff.2 ⟨⟨nofun, List.forall_mem_nil _⟩, List.forall_mem_nil _⟩

theorem ofWirePart_eq_ok : ∀ {w : Option WireBlock} {b : Block}, ofWirePart w = .ok b →
    b.Throughout Regular ∧ b.Throughout FitsWire
  | none, b, h   => by
    cases h
    exact ⟨empty_regular, empty_fitsWire⟩
  | some w, b, h => by
    obtain ⟨as, bs, has, hbs, rfl⟩ := ofWire_eq_ok_iff.1 h
    have hattrs : ∀ a ∈ tableOfWire as, a.2.ty.Canonical ∧ a.2.FitsWire := by
      intro a ha
      obtain ⟨_, _, hmeans⟩ := exists_mem_left (attributesOfWire_eq_ok_iff.1 has) (mem_of_mem_tableOfWire ha)
      exact hmeans.2.fitsWire
    have hblocks : ∀ e ∈ tableOfWire bs, e.2.2.Throughout Regular ∧ e.2.2.Throughout FitsWire := by
      intro e he
      obtain ⟨f, hf, hread⟩ := exists_mem_left (blocksOfWire_eq_ok_iff.1 hbs) (mem_of_mem_tableOfWire he)
      have := sizeOf_inner_lt hf
      exact ofWirePart_eq_ok hread.2.2
    constructor
    · refine throughout_iff.2 ⟨⟨nodup_names_tableOfWire as, nodup_names_tableOfWire bs, fun a ha => ?_⟩, fun e he => ?_⟩
      · exact (hattrs a ha).1
      · exact (hblocks e he).1
    · refine throughout_iff.2 ⟨⟨textOfWire_ne _, fun a ha => (hattrs a ha).2⟩, fun e he => (hblocks e he).2⟩
termination_by w => sizeOf w

end Block

/-! ## Identity schemas -/

theorem IdentityAttribute.ofWire_toWire (name : String) {a : IdentityAttribute} (ht : a.ty.Canonical)
    (hfits : a.FitsWire) : IdentityAttribute.ofWire (a.toWire name) = .ok a := by
  obtain ⟨ty, requirement, description⟩ := a
  unfold IdentityAttribute.ofWire IdentityAttribute.toWire
  dsimp only
  rw [Ty.ofDescriptorBytes_descriptorBytes ht hfits.2, textOfWire_getD hfits.1]
  cases requirement <;> rfl

theorem IdentityAttribute.ofWire_eq_ok {w : WireIdentityAttribute} {a : IdentityAttribute}
    (h : IdentityAttribute.ofWire w = .ok a) :
    a.ty.Canonical ∧ a.FitsWire := by
  obtain ⟨t, ht, h⟩ := bind_eq_ok.1 h
  cases h
  obtain ⟨hcanonical, hdepth⟩ := Ty.ofDescriptorBytes_eq_ok ht
  exact ⟨hcanonical, textOfWire_ne _, hdepth⟩

theorem identityAttributesOfWire_toWire : ∀ {as : List (String × IdentityAttribute)}, (∀ a ∈ as, a.2.ty.Canonical) →
    (∀ a ∈ as, a.2.FitsWire) →
      identityAttributesOfWire (as.map fun (name, a) => a.toWire name) = .ok as
  | [], _, _                    => rfl
  | (name, a) :: as, ht, hfits => by
    obtain ⟨hta, htas⟩ := List.forall_mem_cons.1 ht
    obtain ⟨hfa, hfas⟩ := List.forall_mem_cons.1 hfits
    rw [List.map_cons, identityAttributesOfWire, IdentityAttribute.ofWire_toWire name hta hfa,
      identityAttributesOfWire_toWire htas hfas]
    rfl

theorem identityAttributesOfWire_eq_ok : ∀ {ws : List WireIdentityAttribute} {as : List (String × IdentityAttribute)},
    identityAttributesOfWire ws = .ok as →
      ∀ a ∈ as, a.2.ty.Canonical ∧ a.2.FitsWire
  | [], as, h      => by
    cases h
    exact List.forall_mem_nil _
  | w :: ws, as, h => by
    rw [identityAttributesOfWire] at h
    obtain ⟨a, ha, h⟩ := bind_eq_ok.1 h
    obtain ⟨as', has, h⟩ := bind_eq_ok.1 h
    cases h
    exact List.forall_mem_cons.2 ⟨IdentityAttribute.ofWire_eq_ok ha, identityAttributesOfWire_eq_ok has⟩

/-! ## Schemas -/

theorem Schema.ofWire_toWire {s : Schema} (hs : s.WellFormed) (hfits : s.FitsWire) :
    Schema.ofWire s.toWire = .ok s :=
  Schema.ofWire_eq_ok_iff.2 ⟨rfl, Block.ofWire_toWire s.version hs hfits⟩

/-- **What is read from the wire is well-formed and fits the wire**, whatever the message was. -/
theorem Schema.ofWire_eq_ok {w : WireSchema} {s : Schema} (h : Schema.ofWire w = .ok s) :
    s.WellFormed ∧ s.FitsWire :=
  Block.ofWirePart_eq_ok (Schema.ofWire_eq_ok_iff.1 h).2

theorem IdentitySchema.ofWire_toWire {s : IdentitySchema} (hs : s.WellFormed) (hfits : s.FitsWire) :
    IdentitySchema.ofWire s.toWire = .ok s := by
  unfold IdentitySchema.ofWire IdentitySchema.toWire
  dsimp only
  rw [identityAttributesOfWire_toWire hs.2 hfits]
  show Except.ok (IdentitySchema.mk s.version (tableOfWire s.attributes)) = _
  rw [tableOfWire_of_nodup hs.1]

theorem IdentitySchema.ofWire_eq_ok {w : WireIdentitySchema} {s : IdentitySchema}
    (h : IdentitySchema.ofWire w = .ok s) : s.WellFormed ∧ s.FitsWire := by
  obtain ⟨as, has, h⟩ := bind_eq_ok.1 h
  cases h
  have hattrs := identityAttributesOfWire_eq_ok has
  refine ⟨⟨nodup_names_tableOfWire as, fun a ha => ?_⟩, fun a ha => ?_⟩
  · exact (hattrs a (mem_of_mem_tableOfWire ha)).1
  · exact (hattrs a (mem_of_mem_tableOfWire ha)).2

/-- **Schemas and identity schemas come back from the wire as they were**, if the wire can tell them from others; and
what was read from the wire, from any message, always does. -/
theorem wire_round_trip :
    (∀ s : Schema, s.WellFormed → s.FitsWire → Schema.ofWire s.toWire = .ok s) ∧
    (∀ (w : WireSchema) (s : Schema), Schema.ofWire w = .ok s → Schema.ofWire s.toWire = .ok s) ∧
    (∀ s : IdentitySchema, s.WellFormed → s.FitsWire → IdentitySchema.ofWire s.toWire = .ok s) ∧
    ∀ (w : WireIdentitySchema) (s : IdentitySchema), IdentitySchema.ofWire w = .ok s →
      IdentitySchema.ofWire s.toWire = .ok s := by
  refine ⟨fun s => Schema.ofWire_toWire, fun w s h => ?_, fun s => IdentitySchema.ofWire_toWire, fun w s h => ?_⟩
  · obtain ⟨hs, hfits⟩ := Schema.ofWire_eq_ok h
    exact Schema.ofWire_toWire hs hfits
  · obtain ⟨hs, hfits⟩ := IdentitySchema.ofWire_eq_ok h
    exact IdentitySchema.ofWire_toWire hs hfits

/-! A rack has slots, and a slot has cards by name. -/

def rackSchema : Schema :=
  let extent := Ty.object [("h", .number), ("w", .number)]
  let card := (Block.empty.addAttribute "vendor" (.required .string)).describe "any card"
  let slot := (Block.empty.addAttribute "sizes" (.optional (.list extent))).addBlock "card" (.new .map) card
  ((Schema.new 3).addAttribute "id" ((Attribute.computed .string).describe "set on creation")).addBlock "slot"
    (.new .list) slot

/-- A name twice, a type with blanks and unordered attributes, and a block without content. -/
def rackMessage : WireSchema :=
  let any := Text.Utf8.encode "\"string\""
  let extent := Text.Utf8.encode " [\"object\", \x7b\"w\": \"bool\", \"h\": \"number\", \"w\": \"number\"\x7d]"
  ⟨1, some ⟨0, [⟨"size", any, "", true, false, false, false, false⟩, ⟨"id", any, "", false, false, true, false, false⟩,
    ⟨"size", extent, "", false, true, true, false, false⟩], [(⟨"slot", 2, 0, 4⟩, none)], "", true⟩⟩

def rackRead : Schema :=
  ⟨1, ⟨[("size", .optionalComputed (.object [("h", .number), ("w", .number)])), ("id", .computed .string)],
    [("slot", ⟨.list, 0, 4⟩, .empty)], none, true⟩⟩

def rackIdentity : IdentitySchema :=
  ((IdentitySchema.new 1).addAttribute "site" ⟨.string, .requiredForImport, some "where it stands"⟩).addAttribute "row"
    ⟨.number, .optionalForImport, none⟩

/-- Both flags are set. -/
def rackIdentityMessage : WireIdentitySchema :=
  ⟨1, [⟨"row", Text.Utf8.encode " \"number\" ", true, true, ""⟩]⟩

theorem wire_round_trip_rack :
    rackSchema.WellFormed ∧ rackSchema.FitsWire ∧ Schema.ofWire rackSchema.toWire = .ok rackSchema ∧
    Schema.ofWire rackMessage = .ok rackRead ∧ Schema.ofWire rackRead.toWire = .ok rackRead ∧
    rackIdentity.WellFormed ∧ rackIdentity.FitsWire ∧ IdentitySchema.ofWire rackIdentity.toWire = .ok rackIdentity ∧
    IdentitySchema.ofWire rackIdentityMessage = .ok ⟨1, [("row", ⟨.number, .optionalForImport, none⟩)]⟩ ∧
    IdentitySchema.ofWire (IdentitySchema.mk 1 [("row", ⟨.number, .optionalForImport, none⟩)]).toWire =
      .ok ⟨1, [("row", ⟨.number, .optionalForImport, none⟩)]⟩ := by
  obtain ⟨written, read, identityWritten, identityRead⟩ := wire_round_trip
  have hs : rackSchema.WellFormed ∧ rackSchema.FitsWire := by decide +kernel
  have hi : rackIdentity.WellFormed ∧ rackIdentity.FitsWire := by decide +kernel
  have hmessage : Schema.ofWire rackMessage = .ok rackRead := toOption_eq_some.1 (by decide +kernel)
  have hidentity : IdentitySchema.ofWire rackIdentityMessage =
      .ok ⟨1, [("row", ⟨.number, .optionalForImport, none⟩)]⟩ := toOption_eq_some.1 (by decide +kernel)
  exact ⟨hs.1, hs.2, written _ hs.1 hs.2, hmessage, read _ _ hmessage, hi.1, hi.2, identityWritten _ hi.1 hi.2,
    hidentity, identityRead _ _ hidentity⟩

end ProviderProtocol
