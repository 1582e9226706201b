import ProviderProtocol.Proofs.Schema.Wire
/-!
# Which schemas are accepted from the wire

A message is accepted if all its blocks are acceptable, at any depth: each attribute has flags that are a mode and
bytes that are a type, and each nested block has a nesting number in use and item counts of 32 bits without sign
(`WireBlock.Acceptable`).  This is asked of all entries, those that are replaced by a later one included.

An entry is acceptable if it means something, and a block is read if its own entries do and what is nested in it is
read (`Block.exists_ofWire_iff`); this is the step from one block to all of them.
-/
namespace ProviderProtocol

/-! ## What a message must be like -/

/-- Required, optional, computed, or both optional and computed. -/
def modeFlags : List (Bool × Bool × Bool) :=
  [(true, false, false), (false, true, false), (false, false, true), (false, true, true)]

def WireAttribute.Acceptable (w : WireAttribute) : Prop :=
  (w.required, w.optional, w.computed) ∈ modeFlags ∧ ∃ t, Ty.ofDescriptorBytes w.ty = .ok t

def WireNesting.Acceptable (w : WireNesting) : Prop :=
  (1 ≤ w.mode ∧ w.mode ≤ 5) ∧ (0 ≤ w.minItems ∧ w.minItems ≤ 4294967295) ∧
    0 ≤ w.maxItems ∧ w.maxItems ≤ 4294967295

namespace WireBlock

def Acceptable (w : WireBlock) : Prop := (∀ a ∈ w.attributes, a.Acceptable) ∧ ∀ e ∈ w.blocks, e.1.Acceptable

/-- The block stands there or is nested in the one that does, at any depth. -/
inductive Reaches : Option WireBlock → WireBlock → Prop
  | here (w : WireBlock) : Reaches (some w) w
  | inside {w c : WireBlock} {n : WireNesting} {inner : Option WireBlock} (hm : (n, inner) ∈ w.blocks)
      (h : Reaches inner c) : Reaches (some w) c

end WireBlock

/-! ## Entries -/

theorem mem_modeFlags_iff {required optional computed : Bool} :
    (required, optional, computed) ∈ modeFlags ↔ ∃ mode, AttributeMode.ofFlags? required optional computed = some mode := by
  rw [← Option.isSome_iff_exists]
  cases required <;> cases optional <;> cases computed <;> decide

theorem WireAttribute.exists_means_iff {w : WireAttribute} : (∃ a, w.Means a) ↔ w.Acceptable := by
  constructor
  · rintro ⟨a, h⟩
    have hmode := AttributeMode.ofFlags?_eq_some_iff.2 ⟨h.required, h.optional, h.computed⟩
    exact ⟨mem_modeFlags_iff.2 ⟨a.mode, hmode⟩, a.ty, h.ty⟩
  · rintro ⟨hflags, t, ht⟩
    obtain ⟨mode, hmode⟩ := mem_modeFlags_iff.1 hflags
    obtain ⟨hrequired, hoptional, hcomputed⟩ := AttributeMode.ofFlags?_eq_some_iff.1 hmode
    exact ⟨⟨t, mode, w.sensitive, w.deprecated, textOfWire w.description⟩,
      ht, hrequired, hoptional, hcomputed, rfl, rfl, rfl⟩

theorem NestingMode.exists_number_iff {n : Int} : (∃ mode : NestingMode, mode.number = n) ↔ 1 ≤ n ∧ n ≤ 5 := by
  constructor
  · rintro ⟨mode, rfl⟩
    cases mode <;> decide
  · rintro ⟨hlow, hhigh⟩
    have hn : n = 1 ∨ n = 2 ∨ n = 3 ∨ n = 4 ∨ n = 5 := by omega
    rcases hn with rfl | rfl | rfl | rfl | rfl
    · exact ⟨.single, rfl⟩
    · exact ⟨.list, rfl⟩
    · exact ⟨.set, rfl⟩
    · exact ⟨.map, rfl⟩
    · exact ⟨.group, rfl⟩

theorem exists_count_iff {n : Int} : (∃ count : UInt32, (count.toNat : Int) = n) ↔ 0 ≤ n ∧ n ≤ 4294967295 := by
  simp only [← @itemCount_eq_ok_iff ""]
  unfold itemCount
  split
  · rename_i hn
    exact iff_of_true ⟨_, rfl⟩ hn
  · rename_i hn
    exact iff_of_false nofun hn

theorem WireNesting.exists_means_iff {w : WireNesting} : (∃ n, w.Means n) ↔ w.Acceptable := by
  unfold WireNesting.Acceptable
  rw [← NestingMode.exists_number_iff, ← exists_count_iff, ← exists_count_iff]
  constructor
  · rintro ⟨n, h⟩
    exact ⟨⟨n.mode, h.mode⟩, ⟨n.minItems, h.minItems⟩, n.maxItems, h.maxItems⟩
  · rintro ⟨⟨mode, hmode⟩, ⟨low, hlow⟩, high, hhigh⟩
    exact ⟨⟨mode, low, high⟩, hmode, hlow, hhigh⟩

/-! ## Blocks -/

theorem exists_attributesOfWire_iff {ws : List WireAttribute} :
    (∃ as, attributesOfWire ws = .ok as) ↔ ∀ w ∈ ws, w.Acceptable := by
  simp only [attributesOfWire_eq_ok_iff, exists_forall₂_iff]
  refine forall₂_congr fun w _ => ?_
  rw [← WireAttribute.exists_means_iff]
  constructor
  · rintro ⟨e, _, h⟩
    exact ⟨e.2, h⟩
  · rintro ⟨a, h⟩
    exact ⟨(w.name, a), rfl, h⟩

namespace Block

theorem exists_blocksOfWire_iff {ws : List (WireNesting × Option WireBlock)} :
    (∃ bs, blocksOfWire ws = .ok bs) ↔ (∀ e ∈ ws, e.1.Acceptable) ∧ ∀ e ∈ ws, ∃ b, ofWirePart e.2 = .ok b := by
  simp only [blocksOfWire_eq_ok_iff, exists_forall₂_iff]
  rw [← forall₂_and]
  refine forall₂_congr fun e _ => ?_
  rw [← WireNesting.exists_means_iff]
  constructor
  · rintro ⟨f, _, hn, hb⟩
    exact ⟨⟨f.2.1, hn⟩, f.2.2, hb⟩
  · rintro ⟨⟨n, hn⟩, b, hb⟩
    exact ⟨(e.1.name, n, b), rfl, hn, hb⟩

/-- A block is read if its own entries are acceptable and what is nested in it is read. -/
theorem exists_ofWire_iff {w : WireBlock} :
    (∃ b, ofWire w = .ok b) ↔ w.Acceptable ∧ ∀ e ∈ w.blocks, ∃ b, ofWirePart e.2 = .ok b := by
  rw [WireBlock.Acceptable, and_assoc, ← exists_attributesOfWire_iff, ← exists_blocksOfWire_iff]
  simp only [ofWire_eq_ok_iff]
  constructor
  · rintro ⟨_, as, bs, has, hbs, _⟩
    exact ⟨⟨as, has⟩, bs, hbs⟩
  · rintro ⟨⟨as, has⟩, bs, hbs⟩
    exact ⟨_, as, bs, has, hbs, rfl⟩

/-- From one block to all that it reaches, by recursion over what is nested in it. -/
theorem exists_ofWirePart_iff : ∀ {w : Option WireBlock},
    (∃ b, ofWirePart w = .ok b) ↔ ∀ c, WireBlock.Reaches w c → c.Acceptable
  | none   => iff_of_true ⟨_, rfl⟩ nofun
  | some w => by
    show (∃ b, ofWire w = .ok b) ↔ _
    rw [exists_ofWire_iff]
    constructor
    · rintro ⟨hw, hinside⟩ c hc
      cases hc with
      | here         => exact hw
      | inside hm hc =>
        have := sizeOf_inner_lt hm
        exact exists_ofWirePart_iff.1 (hinside _ hm) c hc
    · intro h
      refine ⟨h w (.here w), fun e he => ?_⟩
      have := sizeOf_inner_lt he
      exact exists_ofWirePart_iff.2 fun c hc => h c (.inside he hc)
termination_by w => sizeOf w

end Block

/-! ## Schemas -/

/-- **A schema is accepted from the wire if all its blocks are acceptable**, and nothing else is asked.  What is read is
then what the message means: a name keeps its first position and takes its last definition, in each block, and a block
that is missing is an empty one. -/
theorem wire_schemas_are_accepted_exactly :
    (∀ w : WireSchema, (∃ s, Schema.ofWire w = .ok s) ↔ ∀ b, WireBlock.Reaches w.block b → b.Acceptable) ∧
    ∀ (w : WireSchema) (s : Schema), Schema.ofWire w = .ok s →
      s.version = w.version ∧ WireBlock.Means w.block s.block := by
  refine ⟨fun w => ?_, fun w s h => ?_⟩
  · rw [← Block.exists_ofWirePart_iff]
    constructor
    · rintro ⟨s, h⟩
      exact ⟨s.block, (Schema.ofWire_eq_ok_iff.1 h).2⟩
    · rintro ⟨b, h⟩
      exact ⟨⟨w.version, b⟩, Schema.ofWire_eq_ok_iff.2 ⟨rfl, h⟩⟩
  · obtain ⟨hversion, hblock⟩ := Schema.ofWire_eq_ok_iff.1 h
    exact ⟨hversion, Block.means_of_ofWirePart hblock⟩

/-- The first of two definitions is of no mode. -/
def crookedSlot : WireBlock :=
  let any := Text.Utf8.encode "\"string\""
  ⟨0, [⟨"size", any, "", true, false, true, false, false⟩, ⟨"size", any, "", true, false, false, false, false⟩], [], "",
    false⟩

theorem wire_schemas_are_accepted_exactly_rack :
    Schema.ofWire rackMessage = .ok rackRead ∧ rackRead.version = 1 ∧
    WireBlock.Means rackMessage.block rackRead.block ∧ (∀ b, WireBlock.Reaches rackMessage.block b → b.Acceptable) ∧
    ¬ ∃ s, Schema.ofWire ⟨1, some ⟨0, [], [(⟨"slot", 2, 0, 4⟩, some crookedSlot)], "", false⟩⟩ = .ok s := by
  obtain ⟨accepted, read⟩ := wire_schemas_are_accepted_exactly
  have hrack : Schema.ofWire rackMessage = .ok rackRead := toOption_eq_some.1 (by decide +kernel)
  obtain ⟨hversion, hmeans⟩ := read rackMessage rackRead hrack
  refine ⟨hrack, hversion, hmeans, (accepted rackMessage).1 ⟨rackRead, hrack⟩, fun h => ?_⟩
  have hslot : crookedSlot.Acceptable := (accepted _).1 h crookedSlot (.inside List.mem_cons_self (.here crookedSlot))
  exact absurd (hslot.1 _ List.mem_cons_self).1 (by decide)

end ProviderProtocol
