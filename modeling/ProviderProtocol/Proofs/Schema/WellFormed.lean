import ProviderProtocol.Proofs.Value.Shape
import ProviderProtocol.Schema.Basic
/-!
# Well-formed schemas

What is said of a schema is said of its root block and of all blocks within, at any depth (`Block.Throughout`).  A
schema is well-formed if no block has two attributes, or two nested blocks, of one name and all types are canonical;
this is what it means that attributes and blocks are tables.  Whatever is built by adding to an empty schema is
well-formed.
-/
namespace ProviderProtocol

namespace Block

mutual

/-- The condition holds of the block and of every block nested in it. -/
def Throughout (P : Block → Prop) : Block → Prop
  | ⟨attributes, blocks, description, deprecated⟩ =>
    P ⟨attributes, blocks, description, deprecated⟩ ∧ ThroughoutBlocks P blocks

def ThroughoutBlocks (P : Block → Prop) : List (String × Nesting × Block) → Prop
  | []                   => True
  | (_, _, inner) :: rest => inner.Throughout P ∧ ThroughoutBlocks P rest

end

section

variable {P Q : Block → Prop}

theorem throughoutBlocks_iff : ∀ {blocks : List (String × Nesting × Block)},
    ThroughoutBlocks P blocks ↔ ∀ e ∈ blocks, e.2.2.Throughout P
  | []                   => by simp [ThroughoutBlocks]
  | (_, _, inner) :: rest => by rw [ThroughoutBlocks, throughoutBlocks_iff, List.forall_mem_cons]

theorem throughout_iff {b : Block} : b.Throughout P ↔ P b ∧ ∀ e ∈ b.blocks, e.2.2.Throughout P := by
  obtain ⟨attributes, blocks, description, deprecated⟩ := b
  rw [Throughout, throughoutBlocks_iff]

theorem Throughout.here {b : Block} (h : b.Throughout P) : P b := (throughout_iff.1 h).1

theorem Throughout.inside {b : Block} (h : b.Throughout P) {name : String} {nesting : Nesting} {inner : Block}
    (hm : (name, nesting, inner) ∈ b.blocks) : inner.Throughout P := (throughout_iff.1 h).2 _ hm

mutual

def decThroughout [DecidablePred P] : (b : Block) → Decidable (b.Throughout P)
  | ⟨attributes, blocks, description, deprecated⟩ =>
    have := decThroughoutBlocks blocks
    inferInstanceAs (Decidable (P ⟨attributes, blocks, description, deprecated⟩ ∧ ThroughoutBlocks P blocks))

def decThroughoutBlocks [DecidablePred P] : (blocks : List (String × Nesting × Block)) →
    Decidable (ThroughoutBlocks P blocks)
  | []                   => .isTrue trivial
  | (_, _, inner) :: rest =>
    have := decThroughout inner
    have := decThroughoutBlocks rest
    inferInstanceAs (Decidable (inner.Throughout P ∧ ThroughoutBlocks P rest))

end

instance [DecidablePred P] (b : Block) : Decidable (b.Throughout P) := decThroughout b

end

/-- Attributes and nested blocks are tables, and types are canonical. -/
def Regular (b : Block) : Prop :=
  (Table.names b.attributes).Nodup ∧ (Table.names b.blocks).Nodup ∧ ∀ a ∈ b.attributes, a.2.ty.Canonical

end Block

instance : DecidablePred Block.Regular := fun b => inferInstanceAs
  (Decidable ((Table.names b.attributes).Nodup ∧ (Table.names b.blocks).Nodup ∧ ∀ a ∈ b.attributes, a.2.ty.Canonical))

def Schema.WellFormed (s : Schema) : Prop := s.block.Throughout Block.Regular

instance (s : Schema) : Decidable s.WellFormed := inferInstanceAs (Decidable (s.block.Throughout Block.Regular))

def IdentitySchema.WellFormed (s : IdentitySchema) : Prop :=
  (Table.names s.attributes).Nodup ∧ ∀ a ∈ s.attributes, a.2.ty.Canonical

instance (s : IdentitySchema) : Decidable s.WellFormed :=
  inferInstanceAs (Decidable ((Table.names s.attributes).Nodup ∧ ∀ a ∈ s.attributes, a.2.ty.Canonical))

/-! ## Schemas that are built -/

namespace Block

theorem empty_regular : empty.Throughout Regular :=
  throughout_iff.2 ⟨⟨List.nodup_nil, List.nodup_nil, List.forall_mem_nil _⟩, List.forall_mem_nil _⟩

theorem addAttribute_regular {b : Block} (h : b.Throughout Regular) (name : String) {a : Attribute}
    (ha : a.ty.Canonical) : (b.addAttribute name a).Throughout Regular := by
  obtain ⟨⟨hattrs, hblocks, htypes⟩, hinside⟩ := throughout_iff.1 h
  refine throughout_iff.2 ⟨⟨Table.nodup_names_put name a hattrs, hblocks, fun e he => ?_⟩, hinside⟩
  rcases Table.mem_of_mem_put he with rfl | he
  · exact ha
  · exact htypes e he

theorem addBlock_regular {b inner : Block} (h : b.Throughout Regular) (name : String) (nesting : Nesting)
    (hinner : inner.Throughout Regular) : (b.addBlock name nesting inner).Throughout Regular := by
  obtain ⟨⟨hattrs, hblocks, htypes⟩, hinside⟩ := throughout_iff.1 h
  refine throughout_iff.2 ⟨⟨hattrs, Table.nodup_names_put name _ hblocks, htypes⟩, fun e he => ?_⟩
  rcases Table.mem_of_mem_put he with rfl | he
  · exact hinner
  · exact hinside e he

end Block

end ProviderProtocol
