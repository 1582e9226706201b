import ProviderProtocol.Proofs.Schema.Attribute
import ProviderProtocol.Proofs.Schema.WellFormed
import ProviderProtocol.Proofs.Value.Walk
/-!
# Attributes and the types of values

A path that addresses an attribute ends in a block, its owner, in which the last name is looked up (`Block.owner?`).  Up
to there the schema and its value type go the same way (`Block.along?_valueType`).  The last name may be the name of an
attribute and of a nested block; `Schema.attributeAt?` then finds the attribute, but the values have the type of the
block.
-/
namespace ProviderProtocol

/-! ## Types -/

theorem Nesting.wrap_of_alone {n : Nesting} (hn : n.mode = .single ∨ n.mode = .group) (t : Ty) : n.wrap t = t := by
  unfold wrap
  rcases hn with hn | hn <;> rw [hn]

theorem Nesting.along?_wrap {n : Nesting} {step : Step} (hn : ¬ (n.mode = .single ∨ n.mode = .group))
    (h : Block.selects n.mode step = true) (t : Ty) (rest : Path) :
    (n.wrap t).along? (step :: rest) = t.along? rest := by
  obtain ⟨mode, low, high⟩ := n
  cases mode with
  | single => exact absurd (.inl rfl) hn
  | group  => exact absurd (.inr rfl) hn
  | list   => cases step <;> first | rfl | cases h
  | set    => cases step <;> first | rfl | cases h
  | map    => cases step <;> first | rfl | cases h

namespace Block

/-- What a nested block contributes to the type of values. -/
def nestedType (e : Nesting × Block) : Ty := e.1.wrap e.2.valueType

theorem blockTypes_eq : ∀ blocks : List (String × Nesting × Block),
    blockTypes blocks = blocks.map fun e => (e.1, nestedType e.2)
  | []        => rfl
  | e :: rest => by rw [blockTypes, blockTypes_eq rest, List.map_cons, nestedType]

theorem attributeTypes_eq (attrs : List (String × Attribute)) :
    attributeTypes attrs = attrs.map fun e => (e.1, e.2.ty) := rfl

/-- **Of an attribute and a nested block with one name, values have the block.** -/
theorem step?_valueType {b : Block} (hb : b.Regular) (name : String) :
    b.valueType.step? (.attribute name) =
      ((Table.find? name b.blocks).map nestedType).or ((Table.find? name b.attributes).map fun a => a.ty) := by
  obtain ⟨attributes, blocks, description, deprecated⟩ := b
  obtain ⟨hattrs, hblocks, _⟩ := hb
  rw [← Table.names_map fun e : String × Attribute => e.2.ty] at hattrs
  rw [← Table.names_map fun e : String × Nesting × Block => nestedType e.2] at hblocks
  rw [valueType, blockTypes_eq, attributeTypes_eq]
  show Table.find? name (Table.ofList _) = _
  rw [Table.find?_ofList_append, Table.find?_ofList_of_nodup name hattrs, Table.find?_ofList_of_nodup name hblocks,
    Table.find?_map fun e : String × Attribute => e.2.ty,
    Table.find?_map fun e : String × Nesting × Block => nestedType e.2]

theorem Throughout.owner {P : Block → Prop} {b owner : Block} {p : Path} {name : String} (hb : b.Throughout P)
    (h : b.owner? p = some (name, owner)) : P owner := by
  fun_induction owner? b p with
  | case1 b name' =>
    cases h
    exact hb.here
  | case3 b name' steps hne nesting inner hblock hmode ih =>
    exact ih (hb.inside (Table.mem_of_find? hblock)) h
  | case4 b name' nesting inner hblock hmode step rest hsel hne ih =>
    exact ih (hb.inside (Table.mem_of_find? hblock)) h
  | case2 => cases h
  | case5 => cases h
  | case6 => cases h
  | case7 => cases h

/-- Up to the last name, a path goes the same way through the schema and through its value type. -/
theorem along?_valueType {b owner : Block} {p : Path} {name : String} (hb : b.Throughout Regular)
    (h : b.owner? p = some (name, owner)) :
    b.valueType.along? p = owner.valueType.step? (.attribute name) := by
  fun_induction owner? b p with
  | case1 b name' =>
    cases h
    exact Ty.along?_singleton _ _
  | case3 b name' steps hne nesting inner hblock hmode ih =>
    rw [Ty.along?, step?_valueType hb.here, hblock, ← ih (hb.inside (Table.mem_of_find? hblock)) h]
    show (nesting.wrap inner.valueType).along? steps = _
    rw [Nesting.wrap_of_alone hmode]
  | case4 b name' nesting inner hblock hmode step rest hsel hne ih =>
    rw [Ty.along?, step?_valueType hb.here, hblock, ← ih (hb.inside (Table.mem_of_find? hblock)) h]
    exact Nesting.along?_wrap hmode hsel inner.valueType rest
  | case2 => cases h
  | case5 => cases h
  | case6 => cases h
  | case7 => cases h

/-- No name is the name of an attribute and of a nested block. -/
def NamesApart (b : Block) : Prop := ∀ name ∈ Table.names b.attributes, name ∉ Table.names b.blocks

end Block

/-! ## Values -/

namespace Schema

/-- What values have instead of the attribute at the path: the nested block of the same name beside it. -/
def namesakeAt? (s : Schema) (p : Path) : Option (Nesting × Block) :=
  (s.block.owner? p).bind fun (name, owner) => Table.find? name owner.blocks

theorem along?_valueType {s : Schema} {p : Path} {a : Attribute} (hs : s.WellFormed) (ha : s.attributeAt? p = some a) :
    s.valueType.along? p = some (((s.namesakeAt? p).map Block.nestedType).getD a.ty) := by
  obtain ⟨name, owner, howner, hname⟩ := Block.owner?_of_attributeAt? ha
  have hbeside : s.namesakeAt? p = Table.find? name owner.blocks := by
    rw [namesakeAt?, howner]
    rfl
  show s.block.valueType.along? p = _
  rw [Block.along?_valueType hs howner, Block.step?_valueType (hs.owner howner), hname, hbeside]
  cases Table.find? name owner.blocks <;> rfl

theorem namesakeAt?_eq_none {s : Schema} {p : Path} {a : Attribute} (hs : s.block.Throughout Block.NamesApart)
    (ha : s.attributeAt? p = some a) : s.namesakeAt? p = none := by
  obtain ⟨name, owner, howner, hname⟩ := Block.owner?_of_attributeAt? ha
  have hapart := hs.owner howner name (Table.mem_names (Table.mem_of_find? hname))
  rw [namesakeAt?, howner]
  exact Table.find?_eq_none_iff.2 hapart

/-- **A node has the type of the attribute at its path, except for a namesake of another type**: then it has the type of
the namesake.  If no block has an attribute and a nested block of one name, there is no exception. -/
theorem node_ty_eq_attribute_ty_iff {s : Schema} {v x : Value} {p : Path} {a : Attribute} (hs : s.WellFormed)
    (hv : v.WellFormed) (ht : v.ty = s.valueType) (hx : v.walk p = .ok (some x)) (ha : s.attributeAt? p = some a) :
    (x.ty = a.ty ↔ ∀ e, s.namesakeAt? p = some e → Block.nestedType e = a.ty) ∧
    (∀ e, s.namesakeAt? p = some e → x.ty = Block.nestedType e) ∧
    (s.block.Throughout Block.NamesApart → x.ty = a.ty) := by
  have hty : x.ty = ((s.namesakeAt? p).map Block.nestedType).getD a.ty :=
    Value.walk_ty hv (ht ▸ along?_valueType hs ha) hx
  have hnamesake : ∀ e, s.namesakeAt? p = some e → x.ty = Block.nestedType e := fun e he => by
    rw [hty, he]
    rfl
  refine ⟨⟨fun h e he => (hnamesake e he).symm.trans h, fun h => ?_⟩, hnamesake, fun hapart => ?_⟩
  · cases hn : s.namesakeAt? p with
    | none   => rw [hty, hn, Option.map_none, Option.getD_none]
    | some e => rw [hnamesake e hn, h e hn]
  · rw [hty, namesakeAt?_eq_none hapart ha, Option.map_none, Option.getD_none]

/-! A cabinet has a lock, a list of drawers and, in each drawer, a label that is defined twice. -/

def labelTy : Ty := .object [("text", .string)]

def cabinetSchema : Schema :=
  let label := Block.empty.addAttribute "text" (.optional .string)
  let drawer := (Block.empty.addAttribute "label" (.optional labelTy)).addBlock "label" (.new .single) label
  (((Schema.new 0).addAttribute "lock" (.optional .string)).addBlock "lock" (.new .list) label).addBlock "drawer"
    (.new .list) drawer

def drawerValue : Value :=
  .known (.object [("label", labelTy)]) (.map [("label", .known labelTy (.map [("text", .ofString "A-K")]))])

def cabinet : Value :=
  .known (.object [("drawer", .list drawerValue.ty), ("lock", .list labelTy)]) (.map [
    ("drawer", .known (.list drawerValue.ty) (.list [drawerValue])),
    ("lock", .known (.list labelTy) (.list []))])

/-- The label of a drawer has the type of both its definitions. -/
theorem node_ty_eq_attribute_ty_cabinet :
    let p : Path := [.attribute "drawer", .index 0, .attribute "label"]
    let x : Value := .known labelTy (.map [("text", .ofString "A-K")])
    cabinetSchema.WellFormed ∧ cabinet.WellFormed ∧ cabinet.ty = cabinetSchema.valueType ∧
      cabinet.walk p = .ok (some x) ∧ cabinetSchema.attributeAt? p = some (.optional labelTy) ∧ x.ty = labelTy := by
  intro p x
  have hs : cabinetSchema.WellFormed := by decide +kernel
  have hv : cabinet.WellFormed := by decide
  have ht : cabinet.ty = cabinetSchema.valueType := by decide
  have hx : cabinet.walk p = .ok (some x) := rfl
  have ha : cabinetSchema.attributeAt? p = some (.optional labelTy) := rfl
  refine ⟨hs, hv, ht, hx, ha, (node_ty_eq_attribute_ty_iff hs hv ht hx ha).1.2 fun e he => ?_⟩
  cases he
  rfl

/-- The lock is a text by its definition and a list in all values. -/
theorem attribute_ty_not_of_namesake :
    ¬ ∀ (s : Schema) (v x : Value) (p : Path) (a : Attribute), s.WellFormed → v.WellFormed → v.ty = s.valueType →
      v.walk p = .ok (some x) → s.attributeAt? p = some a → x.ty = a.ty := by
  intro h
  have hty := h cabinetSchema cabinet (.known (.list labelTy) (.list [])) [.attribute "lock"] (.optional .string)
    (by decide +kernel) (by decide) (by decide) rfl rfl
  cases hty

end Schema

end ProviderProtocol
