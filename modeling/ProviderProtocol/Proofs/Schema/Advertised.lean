import ProviderProtocol.Proofs.Schema.ValueType
import ProviderProtocol.Proofs.Schema.Wire
/-!
# Schemas that are advertised

Whoever is sent a schema reads it from the wire, and then uses its version and its value type.  The wire keeps both: all
that it loses is whether a description was empty or absent.  A schema without its empty descriptions (`Schema.plain`)
looks the same on the wire and comes back from it, if all types can be read again (`Schema.restores_toWire`).
-/
namespace ProviderProtocol

open Json (depthLimit)

/-- All types can be read again from their descriptors. -/
def Block.Readable (b : Block) : Prop := ∀ a ∈ b.attributes, a.2.ty.descriptor.depth ≤ depthLimit

def Schema.Readable (s : Schema) : Prop := s.block.Throughout Block.Readable

def IdentitySchema.Readable (s : IdentitySchema) : Prop := ∀ a ∈ s.attributes, a.2.ty.descriptor.depth ≤ depthLimit

instance : DecidablePred Block.Readable := fun b =>
  inferInstanceAs (Decidable (∀ a ∈ b.attributes, a.2.ty.descriptor.depth ≤ depthLimit))

instance (s : Schema) : Decidable s.Readable := inferInstanceAs (Decidable (s.block.Throughout Block.Readable))

instance (s : IdentitySchema) : Decidable s.Readable :=
  inferInstanceAs (Decidable (∀ a ∈ s.attributes, a.2.ty.descriptor.depth ≤ depthLimit))

/-- Whoever reads the message gets the version and the value type of the schema. -/
def WireSchema.Restores (w : WireSchema) (s : Schema) : Prop :=
  ∃ read, Schema.ofWire w = .ok read ∧ read.version = s.version ∧ read.valueType = s.valueType

def WireIdentitySchema.Restores (w : WireIdentitySchema) (s : IdentitySchema) : Prop :=
  ∃ read, IdentitySchema.ofWire w = .ok read ∧ read.version = s.version ∧ read.valueType = s.valueType

/-! ## Without empty descriptions -/

/-- The text, unless it is empty. -/
def plainText (text : Option String) : Option String := textOfWire (text.getD "")

theorem getD_plainText (text : Option String) : (plainText text).getD "" = text.getD "" := by
  unfold plainText textOfWire
  split
  · rename_i h
    exact h.symm
  · rfl

theorem plainText_ne (text : Option String) : plainText text ≠ some "" := textOfWire_ne _

def Attribute.plain (a : Attribute) : Attribute := { a with description := plainText a.description }

def IdentityAttribute.plain (a : IdentityAttribute) : IdentityAttribute :=
  { a with description := plainText a.description }

theorem Attribute.toWire_plain (name : String) (a : Attribute) : a.plain.toWire name = a.toWire name := by
  unfold toWire plain
  rw [getD_plainText]
  rfl

theorem IdentityAttribute.toWire_plain (name : String) (a : IdentityAttribute) :
    a.plain.toWire name = a.toWire name := by
  unfold toWire plain
  rw [getD_plainText]

namespace Block

mutual

def plain : Block → Block
  | ⟨attributes, blocks, description, deprecated⟩ =>
    ⟨attributes.map fun (name, a) => (name, a.plain), plainBlocks blocks, plainText description, deprecated⟩

def plainBlocks : List (String × Nesting × Block) → List (String × Nesting × Block)
  | []                             => []
  | (name, nesting, inner) :: rest => (name, nesting, inner.plain) :: plainBlocks rest

end

theorem plainBlocks_eq : ∀ blocks : List (String × Nesting × Block),
    plainBlocks blocks = blocks.map fun e => (e.1, e.2.1, e.2.2.plain)
  | []        => rfl
  | e :: rest => by rw [plainBlocks, plainBlocks_eq rest, List.map_cons]

theorem plain_blocks (b : Block) : b.plain.blocks = b.blocks.map fun e => (e.1, e.2.1, e.2.2.plain) := by
  obtain ⟨attributes, blocks, description, deprecated⟩ := b
  exact plainBlocks_eq blocks

theorem plain_attributes (b : Block) : b.plain.attributes = b.attributes.map fun e => (e.1, e.2.plain) := by
  obtain ⟨attributes, blocks, description, deprecated⟩ := b
  rfl

theorem plain_description (b : Block) : b.plain.description = plainText b.description := by
  obtain ⟨attributes, blocks, description, deprecated⟩ := b
  rfl

theorem Regular.plain {b : Block} (h : b.Regular) : b.plain.Regular := by
  obtain ⟨hattrs, hblocks, htypes⟩ := h
  refine ⟨?_, ?_, fun a ha => ?_⟩
  · rw [plain_attributes, Table.names_map fun e : String × Attribute => e.2.plain]
    exact hattrs
  · rw [plain_blocks, Table.names_map fun e : String × Nesting × Block => (e.2.1, e.2.2.plain)]
    exact hblocks
  · rw [plain_attributes] at ha
    obtain ⟨e, he, rfl⟩ := List.mem_map.1 ha
    exact htypes e he

theorem Readable.fitsWire_plain {b : Block} (h : b.Readable) : b.plain.FitsWire := by
  refine ⟨plain_description b ▸ plainText_ne b.description, fun a ha => ?_⟩
  rw [plain_attributes] at ha
  obtain ⟨e, he, rfl⟩ := List.mem_map.1 ha
  exact ⟨plainText_ne e.2.description, h e he⟩

mutual

/-- What clearing one block makes of a condition, it makes of the condition on all blocks. -/
theorem Throughout.plain {P Q : Block → Prop} (hPQ : ∀ {b : Block}, P b → Q b.plain) :
    ∀ {b : Block}, b.Throughout P → b.plain.Throughout Q
  | ⟨_, _, _, _⟩, ⟨hhere, hinside⟩ => ⟨hPQ hhere, throughoutBlocks_plain hPQ hinside⟩

theorem throughoutBlocks_plain {P Q : Block → Prop} (hPQ : ∀ {b : Block}, P b → Q b.plain) :
    ∀ {blocks : List (String × Nesting × Block)}, ThroughoutBlocks P blocks → ThroughoutBlocks Q (plainBlocks blocks)
  | [], _                           => trivial
  | (_, _, _) :: _, ⟨hinner, hrest⟩ => ⟨hinner.plain hPQ, throughoutBlocks_plain hPQ hrest⟩

end

mutual

theorem toWire_plain (version : Int64) : ∀ b : Block, b.plain.toWire version = b.toWire version
  | ⟨attributes, blocks, description, deprecated⟩ => by
    rw [plain, toWire, toWire, blocksToWire_plainBlocks version blocks, getD_plainText, List.map_map]
    refine congrArg (WireBlock.mk version · _ _ _) (List.map_congr_left fun e _ => ?_)
    exact e.2.toWire_plain e.1

theorem blocksToWire_plainBlocks (version : Int64) : ∀ blocks : List (String × Nesting × Block),
    blocksToWire version (plainBlocks blocks) = blocksToWire version blocks
  | []                             => rfl
  | (name, nesting, inner) :: rest => by
    rw [plainBlocks, blocksToWire, blocksToWire, toWire_plain version inner, blocksToWire_plainBlocks version rest]

end

mutual

theorem valueType_plain : ∀ b : Block, b.plain.valueType = b.valueType
  | ⟨attributes, blocks, description, deprecated⟩ => by
    rw [plain, valueType, valueType, blockTypes_plainBlocks blocks, attributeTypes_eq, attributeTypes_eq, List.map_map]
    rfl

theorem blockTypes_plainBlocks : ∀ blocks : List (String × Nesting × Block),
    blockTypes (plainBlocks blocks) = blockTypes blocks
  | []                             => rfl
  | (name, nesting, inner) :: rest => by
    rw [plainBlocks, blockTypes, blockTypes, valueType_plain inner, blockTypes_plainBlocks rest]

end

end Block

def Schema.plain (s : Schema) : Schema := ⟨s.version, s.block.plain⟩

def IdentitySchema.plain (s : IdentitySchema) : IdentitySchema :=
  ⟨s.version, s.attributes.map fun (name, a) => (name, a.plain)⟩

/-! ## Over the wire -/

/-- **The wire keeps the version and the value type**, if it can carry the types at all. -/
theorem Schema.restores_toWire {s : Schema} (hs : s.WellFormed) (hread : s.Readable) : s.toWire.Restores s := by
  -- the message is also that of the schema without empty descriptions, which comes back as it is
  have htoWire : s.plain.toWire = s.toWire :=
    congrArg (fun b => WireSchema.mk s.version (some b)) (s.block.toWire_plain s.version)
  have hplain : s.plain.WellFormed := hs.plain Block.Regular.plain
  have hfits : s.plain.FitsWire := hread.plain Block.Readable.fitsWire_plain
  exact ⟨s.plain, htoWire ▸ Schema.ofWire_toWire hplain hfits, rfl, s.block.valueType_plain⟩

theorem IdentitySchema.restores_toWire {s : IdentitySchema} (hs : s.WellFormed) (hread : s.Readable) :
    s.toWire.Restores s := by
  have htoWire : s.plain.toWire = s.toWire := by
    unfold toWire plain
    rw [List.map_map]
    exact congrArg _ (List.map_congr_left fun e _ => e.2.toWire_plain e.1)
  have hplain : s.plain.WellFormed := by
    refine ⟨?_, fun a ha => ?_⟩
    · exact (Table.names_map (fun e : String × IdentityAttribute => e.2.plain) s.attributes).symm ▸ hs.1
    · obtain ⟨e, he, rfl⟩ := List.mem_map.1 ha
      exact hs.2 e he
  have hfits : s.plain.FitsWire := by
    intro a ha
    obtain ⟨e, he, rfl⟩ := List.mem_map.1 ha
    exact ⟨plainText_ne e.2.description, hread e he⟩
  refine ⟨s.plain, htoWire ▸ IdentitySchema.ofWire_toWire hplain hfits, rfl, ?_⟩
  unfold valueType plain
  rw [List.map_map]
  rfl

end ProviderProtocol
