import ProviderProtocol.Proofs.Pointwise
import ProviderProtocol.Proofs.Postcondition
import ProviderProtocol.Schema.Wire
/-!
# What a schema on the wire means

An attribute is read as what its message means and as nothing else (`Attribute.ofWire_eq_ok_iff`), and so is the nesting
of a block (`Nesting.ofWire_eq_ok_iff`).  A block is read entry by entry (`Block.ofWire_eq_ok_iff`), and it becomes what
its message means (`Block.means_of_ofWirePart`): under each name stands what the last entry says, the names stand in
the order of their first entries, and a nested block that is missing is an empty one.
-/
namespace ProviderProtocol

/-! ## What a message means -/

/-- A table of the entries of a message: the names in the order of their first entries, with what the last one of each
means. -/
structure Collects (R : α → β → Prop) (entries : List (String × α)) (t : List (String × β)) : Prop where
  names : Table.names t = (Table.names entries).eraseDups
  last : ∀ name, Option.Rel R (Table.last? name entries) (Table.find? name t)

structure WireAttribute.Means (w : WireAttribute) (a : Attribute) : Prop where
  ty : Ty.ofDescriptorBytes w.ty = .ok a.ty
  required : a.isRequired = w.required
  optional : a.isOptional = w.optional
  computed : a.isComputed = w.computed
  sensitive : a.sensitive = w.sensitive
  deprecated : a.deprecated = w.deprecated
  description : a.description = textOfWire w.description

structure WireNesting.Means (w : WireNesting) (n : Nesting) : Prop where
  mode : n.mode.number = w.mode
  minItems : n.minItems.toNat = w.minItems
  maxItems : n.maxItems.toNat = w.maxItems

namespace WireBlock

def namedAttributes (w : WireBlock) : List (String × WireAttribute) := w.attributes.map fun a => (a.name, a)

def namedBlocks (w : WireBlock) : List (String × WireNesting × Option WireBlock) := w.blocks.map fun e => (e.1.name, e)

/-- The block is what the message says, with all that is nested in it; where there is no message, it is empty. -/
inductive Means : Option WireBlock → Block → Prop
  | missing : Means none .empty
  | block {w : WireBlock} {b : Block}
      (attributes : Collects WireAttribute.Means w.namedAttributes b.attributes)
      (blocks : Collects (fun e n => e.1.Means n.1) w.namedBlocks b.blocks)
      (inside : ∀ name n k inner c, Table.last? name w.namedBlocks = some (n, inner) →
        Table.find? name b.blocks = some (k, c) → Means inner c)
      (description : b.description = textOfWire w.description)
      (deprecated : b.deprecated = w.deprecated) : Means (some w) b

end WireBlock

theorem collects_tableOfWire {R : α → β → Prop} {entries : List (String × α)} {definitions : List (String × β)}
    (h : List.Forall₂ (fun x y => x.1 = y.1 ∧ R x.2 y.2) entries definitions) :
    Collects R entries (tableOfWire definitions) := by
  constructor
  · show Table.names (Table.putAll [] definitions) = _
    rw [Table.names_putAll, Table.names_eq_of_forall₂ h]
    simp [Table.names]
  · intro name
    show Option.Rel R _ (Table.find? name (Table.putAll [] definitions))
    rw [Table.find?_putAll, Table.find?_nil, Option.or_none]
    exact Table.last?_rel (R := fun _ => R) Function.injective_id name h

/-! ## Attributes -/

theorem AttributeMode.ofFlags?_eq_some_iff {required optional computed : Bool} {mode : AttributeMode} :
    ofFlags? required optional computed = some mode ↔
      (mode == .required) = required ∧ (mode == .optional || mode == .optionalComputed) = optional ∧
        (mode == .computed || mode == .optionalComputed) = computed := by
  cases required <;> cases optional <;> cases computed <;> cases mode <;> decide

theorem Attribute.ofWire_eq_ok_iff {w : WireAttribute} {a : Attribute} : Attribute.ofWire w = .ok a ↔ w.Means a := by
  obtain ⟨ty, mode, sensitive, deprecated, description⟩ := a
  constructor
  · intro h
    unfold Attribute.ofWire at h
    split at h
    · cases h
    · rename_i m hmode
      obtain ⟨t, ht, h⟩ := bind_eq_ok.1 h
      cases h
      obtain ⟨hrequired, hoptional, hcomputed⟩ := AttributeMode.ofFlags?_eq_some_iff.1 hmode
      exact ⟨ht, hrequired, hoptional, hcomputed, rfl, rfl, rfl⟩
  · rintro ⟨hty, hrequired, hoptional, hcomputed, rfl, rfl, rfl⟩
    have hmode : AttributeMode.ofFlags? w.required w.optional w.computed = some mode :=
      AttributeMode.ofFlags?_eq_some_iff.2 ⟨hrequired, hoptional, hcomputed⟩
    unfold Attribute.ofWire
    rw [hmode, hty]
    rfl

/-! ## Nesting -/

theorem NestingMode.ofNumber?_eq_some_iff {n : Int} {mode : NestingMode} :
    ofNumber? n = some mode ↔ mode.number = n := by
  constructor
  · intro h
    unfold ofNumber? at h
    split_ifs at h <;> cases h <;> exact Eq.symm ‹_›
  · rintro rfl
    cases mode <;> rfl

theorem itemCount_eq_ok_iff {name : String} {n : Int} {count : UInt32} :
    itemCount name n = .ok count ↔ (count.toNat : Int) = n := by
  constructor
  · intro h
    unfold itemCount at h
    split at h
    · rename_i hn
      cases h
      have hlt : n.toNat < UInt32.size := by
        have hsize : UInt32.size = 4294967296 := rfl
        omega
      rw [UInt32.toNat_ofNat_of_lt' hlt, Int.toNat_of_nonneg hn.1]
    · cases h
  · rintro rfl
    have hcount : count.toNat < 4294967296 := count.toNat_lt
    unfold itemCount
    rw [if_pos (by omega), Int.toNat_natCast, UInt32.ofNat_toNat]

theorem Nesting.ofWire_eq_ok_iff {w : WireNesting} {n : Nesting} : Nesting.ofWire w = .ok n ↔ w.Means n := by
  constructor
  · intro h
    unfold Nesting.ofWire at h
    split at h
    · cases h
    · rename_i mode hmode
      obtain ⟨low, hlow, h⟩ := bind_eq_ok.1 h
      obtain ⟨high, hhigh, h⟩ := bind_eq_ok.1 h
      cases h
      exact ⟨NestingMode.ofNumber?_eq_some_iff.1 hmode, itemCount_eq_ok_iff.1 hlow, itemCount_eq_ok_iff.1 hhigh⟩
  · rintro ⟨hmode, hlow, hhigh⟩
    unfold Nesting.ofWire
    rw [NestingMode.ofNumber?_eq_some_iff.2 hmode, itemCount_eq_ok_iff.2 hlow, itemCount_eq_ok_iff.2 hhigh]
    rfl

/-! ## One block -/

theorem attributesOfWire_eq_ok_iff : ∀ {ws : List WireAttribute} {as : List (String × Attribute)},
    attributesOfWire ws = .ok as ↔ List.Forall₂ (fun w e => w.name = e.1 ∧ w.Means e.2) ws as
  | [], as      => by
    rw [attributesOfWire, List.forall₂_nil_left_iff, Except.ok.injEq, eq_comm]
  | w :: ws, as => by
    rw [attributesOfWire]
    constructor
    · intro h
      obtain ⟨a, ha, h⟩ := bind_eq_ok.1 h
      obtain ⟨rest, hrest, h⟩ := bind_eq_ok.1 h
      cases h
      exact .cons ⟨rfl, Attribute.ofWire_eq_ok_iff.1 ha⟩ (attributesOfWire_eq_ok_iff.1 hrest)
    · intro h
      cases h with
      | @cons _ e _ rest h hrest =>
        obtain ⟨name, a⟩ := e
        obtain ⟨rfl, ha⟩ := h
        refine bind_eq_ok.2 ⟨a, Attribute.ofWire_eq_ok_iff.2 ha, ?_⟩
        exact bind_eq_ok.2 ⟨rest, attributesOfWire_eq_ok_iff.2 hrest, rfl⟩

namespace Block

/-- What is read where there may be no block. -/
def ofWirePart : Option WireBlock → Except ProviderError Block
  | some w => ofWire w
  | none   => .ok empty

/-- What is read from an entry for a nested block. -/
def EntryOfWire (w : WireNesting × Option WireBlock) (e : String × Nesting × Block) : Prop :=
  w.1.name = e.1 ∧ w.1.Means e.2.1 ∧ ofWirePart w.2 = .ok e.2.2

theorem blocksOfWire_cons (w : WireNesting) (inner : Option WireBlock) (rest : List (WireNesting × Option WireBlock)) :
    blocksOfWire ((w, inner) :: rest) = (do
      let nesting ← Nesting.ofWire w
      let b ← ofWirePart inner
      let bs ← blocksOfWire rest
      pure ((w.name, nesting, b) :: bs)) := by
  cases inner <;> rfl

theorem blocksOfWire_eq_ok_iff : ∀ {ws : List (WireNesting × Option WireBlock)} {bs : List (String × Nesting × Block)},
    blocksOfWire ws = .ok bs ↔ List.Forall₂ EntryOfWire ws bs
  | [], bs                 => by
    rw [blocksOfWire, List.forall₂_nil_left_iff, Except.ok.injEq, eq_comm]
  | (w, inner) :: rest, bs => by
    rw [blocksOfWire_cons]
    constructor
    · intro h
      obtain ⟨nesting, hnesting, h⟩ := bind_eq_ok.1 h
      obtain ⟨b, hb, h⟩ := bind_eq_ok.1 h
      obtain ⟨bs', hbs, h⟩ := bind_eq_ok.1 h
      cases h
      exact .cons ⟨rfl, Nesting.ofWire_eq_ok_iff.1 hnesting, hb⟩ (blocksOfWire_eq_ok_iff.1 hbs)
    · intro h
      cases h with
      | @cons _ e _ bs' h hrest =>
        obtain ⟨name, nesting, b⟩ := e
        obtain ⟨rfl, hnesting, hb⟩ := h
        refine bind_eq_ok.2 ⟨nesting, Nesting.ofWire_eq_ok_iff.2 hnesting, bind_eq_ok.2 ⟨b, hb, ?_⟩⟩
        exact bind_eq_ok.2 ⟨bs', blocksOfWire_eq_ok_iff.2 hrest, rfl⟩

theorem ofWire_eq_ok_iff {w : WireBlock} {b : Block} :
    ofWire w = .ok b ↔ ∃ as bs, attributesOfWire w.attributes = .ok as ∧ blocksOfWire w.blocks = .ok bs ∧
      b = ⟨tableOfWire as, tableOfWire bs, textOfWire w.description, w.deprecated⟩ := by
  obtain ⟨version, attributes, blocks, description, deprecated⟩ := w
  rw [ofWire]
  constructor
  · intro h
    obtain ⟨as, has, h⟩ := bind_eq_ok.1 h
    obtain ⟨bs, hbs, h⟩ := bind_eq_ok.1 h
    cases h
    exact ⟨as, bs, has, hbs, rfl⟩
  · rintro ⟨as, bs, has, hbs, rfl⟩
    exact bind_eq_ok.2 ⟨as, has, bind_eq_ok.2 ⟨bs, hbs, rfl⟩⟩

/-! ## All blocks -/

theorem sizeOf_inner_lt {w : WireBlock} {e : WireNesting × Option WireBlock} (he : e ∈ w.blocks) :
    sizeOf e.2 < sizeOf (some w) := by
  obtain ⟨version, attributes, blocks, description, deprecated⟩ := w
  have hlist : sizeOf e < sizeOf blocks := List.sizeOf_lt_of_mem he
  obtain ⟨n, inner⟩ := e
  simp only [Prod.mk.sizeOf_spec, Option.some.sizeOf_spec, WireBlock.mk.sizeOf_spec] at hlist ⊢
  omega

/-- **A block that is read is what its message means**, with all blocks that are nested in it. -/
theorem means_of_ofWirePart : ∀ {w : Option WireBlock} {b : Block}, ofWirePart w = .ok b → WireBlock.Means w b
  | none, b, h   => by
    cases h
    exact .missing
  | some w, b, h => by
    obtain ⟨as, bs, has, hbs, rfl⟩ := ofWire_eq_ok_iff.1 h
    have hattributes := attributesOfWire_eq_ok_iff.1 has
    have hblocks := blocksOfWire_eq_ok_iff.1 hbs
    refine .block (collects_tableOfWire ?_) (collects_tableOfWire ?_) ?_ rfl rfl
    · exact List.forall₂_map_left_iff.2 hattributes
    · exact List.forall₂_map_left_iff.2 (hblocks.imp fun _ _ h => ⟨h.1, h.2.1⟩)
    · intro name n k inner c hlast hfind
      have hinside : Collects (fun e f => ofWirePart e.2 = .ok f.2) w.namedBlocks (tableOfWire bs) :=
        collects_tableOfWire (List.forall₂_map_left_iff.2 (hblocks.imp fun _ _ h => ⟨h.1, h.2.2⟩))
      -- the definition that a name has was read from the last entry of that name
      have hread := hinside.last name
      rw [hlast, hfind] at hread
      obtain ⟨e, he, heq⟩ := List.mem_map.1 (Table.mem_of_last? hlast)
      cases heq
      have := sizeOf_inner_lt he
      cases hread with
      | some hread => exact means_of_ofWirePart hread
termination_by w => sizeOf w

end Block

theorem Schema.ofWire_eq_ok_iff {w : WireSchema} {s : Schema} :
    Schema.ofWire w = .ok s ↔ s.version = w.version ∧ Block.ofWirePart w.block = .ok s.block := by
  obtain ⟨version, block⟩ := w
  obtain ⟨version', b⟩ := s
  constructor
  · intro h
    cases block with
    | none   =>
      cases h
      exact ⟨rfl, rfl⟩
    | some w =>
      obtain ⟨b', hb, h⟩ := bind_eq_ok.1 h
      cases h
      exact ⟨rfl, hb⟩
  · rintro ⟨rfl, hb⟩
    cases block with
    | none   =>
      cases hb
      rfl
    | some w => exact bind_eq_ok.2 ⟨b, hb, rfl⟩

end ProviderProtocol
