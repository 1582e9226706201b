import ProviderProtocol.Proofs.Table
import ProviderProtocol.Value.Shape
/-!
# Values: induction over nodes, and what a shape says

A property of values that passes from the children of a node to the node holds of every value (`Value.node_induction`).
A content agrees with a type exactly if the type is read off the types of the children (`shapeFault?_list`,
`shapeFault?_map`); so replacing children by others of their types keeps the agreement.
-/
namespace ProviderProtocol

/-! ## Induction -/

@[elab_as_elim]
theorem Value.node_induction {P : Value → Prop} (null : ∀ t, P (.null t)) (unknown : ∀ t, P (.unknown t))
    (string : ∀ t s, P (.known t (.string s))) (number : ∀ t n, P (.known t (.number n)))
    (bool : ∀ t b, P (.known t (.bool b)))
    (list : ∀ t xs, (∀ x ∈ xs, P x) → P (.known t (.list xs)))
    (map : ∀ t es, (∀ e ∈ es, P e.2) → P (.known t (.map es))) (v : Value) : P v :=
  @Value.rec P (fun c => ∀ t, P (.known t c)) (fun xs => ∀ x ∈ xs, P x) (fun es => ∀ e ∈ es, P e.2)
    (fun e => P e.2) null unknown (fun t _ h => h t) (fun s t => string t s) (fun n t => number t n)
    (fun b t => bool t b) (fun xs h t => list t xs h) (fun es h t => map t es h)
    (fun _ h => by cases h) (fun _ _ hx hxs => List.forall_mem_cons.2 ⟨hx, hxs⟩)
    (fun _ h => by cases h) (fun _ _ he hes => List.forall_mem_cons.2 ⟨he, hes⟩) (fun _ _ h => h) v

/-! ## Well-formed children -/

theorem Content.itemsWellFormed_iff : ∀ {xs : List Value}, Content.ItemsWellFormed xs ↔ ∀ x ∈ xs, x.WellFormed
  | []      => by simp [Content.ItemsWellFormed]
  | y :: ys => by rw [Content.ItemsWellFormed, Content.itemsWellFormed_iff, List.forall_mem_cons]

theorem Content.entriesWellFormed_iff : ∀ {es : List (String × Value)},
    Content.EntriesWellFormed es ↔ ∀ e ∈ es, e.2.WellFormed
  | []           => by simp [Content.EntriesWellFormed]
  | (k, y) :: es => by rw [Content.EntriesWellFormed, Content.entriesWellFormed_iff, List.forall_mem_cons]

theorem Value.WellFormed.canonical {v : Value} (h : v.WellFormed) : v.ty.Canonical := by
  cases v with
  | null t    => exact h
  | unknown t => exact h
  | known t c => exact h.1

theorem Value.WellFormed.items {t : Ty} {xs : List Value} (h : (Value.known t (.list xs)).WellFormed) :
    ∀ x ∈ xs, x.WellFormed := Content.itemsWellFormed_iff.1 h.2.2

theorem Value.WellFormed.of_items? {v : Value} {xs : List Value} (h : v.WellFormed) (hxs : v.items? = some xs) :
    ∀ x ∈ xs, x.WellFormed := by
  unfold items? at hxs
  split at hxs
  · cases hxs
    exact h.items
  · cases hxs

theorem Value.WellFormed.ascending {t : Ty} {es : List (String × Value)} (h : (Value.known t (.map es)).WellFormed) :
    Table.Ascending es := h.2.2.1

theorem Value.WellFormed.entries {t : Ty} {es : List (String × Value)} (h : (Value.known t (.map es)).WellFormed) :
    ∀ e ∈ es, e.2.WellFormed := Content.entriesWellFormed_iff.1 h.2.2.2

/-! ## Shapes -/

theorem itemFault?_eq_none_iff {ty elem : Ty} : ∀ {i : Nat} {xs : List Value},
    itemFault? ty elem i xs = none ↔ ∀ x ∈ xs, x.ty = elem
  | _, []      => by simp [itemFault?]
  | i, x :: xs => by
    rw [itemFault?, List.forall_mem_cons]
    split
    · rename_i h
      rw [itemFault?_eq_none_iff]
      simp [h]
    · rename_i h
      simp [h]

theorem tupleFault?_eq_none_iff : ∀ {i : Nat} {ts : List Ty} {xs : List Value}, ts.length = xs.length →
    (tupleFault? i ts xs = none ↔ ts = xs.map Value.ty)
  | _, [], [], _           => by simp [tupleFault?]
  | _, [], _ :: _, h       => by cases h
  | _, _ :: _, [], h       => by cases h
  | i, t :: ts, x :: xs, h => by
    rw [tupleFault?, List.map_cons, List.cons.injEq]
    split
    · rename_i he
      rw [tupleFault?_eq_none_iff (Nat.succ.inj h)]
      simp [he]
    · rename_i he
      simp [Ne.symm he]

theorem mapFault?_eq_none_iff {ty elem : Ty} : ∀ {es : List (String × Value)},
    mapFault? ty elem es = none ↔ ∀ e ∈ es, e.2.ty = elem
  | []           => by simp [mapFault?]
  | (k, v) :: es => by
    rw [mapFault?, List.forall_mem_cons]
    split
    · rename_i h
      rw [mapFault?_eq_none_iff]
      simp [h]
    · rename_i h
      simp [h]

theorem undeclaredFault?_eq_none_iff {ty : Ty} {attrs : List (String × Ty)} : ∀ {es : List (String × Value)},
    undeclaredFault? ty attrs es = none ↔ ∀ e ∈ es, e.1 ∈ Table.names attrs
  | []           => by simp [undeclaredFault?]
  | (k, v) :: es => by
    rw [undeclaredFault?, List.forall_mem_cons]
    split
    · rename_i h
      rw [undeclaredFault?_eq_none_iff]
      simp [Table.has_iff.1 h]
    · rename_i h
      have hk : k ∉ Table.names attrs := fun hm => h (Table.has_iff.2 hm)
      simp only [reduceCtorEq, false_iff, not_and]
      exact fun hm => absurd hm hk

theorem attributeFault?_eq_none_iff {ty : Ty} {es : List (String × Value)} : ∀ {attrs : List (String × Ty)},
    attributeFault? ty es attrs = none ↔ ∀ a ∈ attrs, ∃ v, Table.find? a.1 es = some v ∧ v.ty = a.2
  | []              => by simp [attributeFault?]
  | (k, t) :: attrs => by
    rw [attributeFault?, List.forall_mem_cons]
    cases hf : Table.find? k es with
    | none   => simp
    | some v =>
      dsimp only
      split
      · rename_i h
        rw [attributeFault?_eq_none_iff]
        simp [h]
      · rename_i h
        simp [h]

/-- The types of the entries, by name: what an object with these entries declares. -/
def entryTypes (es : List (String × Value)) : List (String × Ty) := es.map fun e => (e.1, e.2.ty)

theorem names_entryTypes (es : List (String × Value)) : Table.names (entryTypes es) = Table.names es :=
  Table.names_map (fun e : String × Value => e.2.ty) es

theorem objectFault_eq_none_iff {ty : Ty} {attrs : List (String × Ty)} {es : List (String × Value)}
    (ha : Table.Ascending attrs) (he : Table.Ascending es) :
    (undeclaredFault? ty attrs es).or (attributeFault? ty es attrs) = none ↔ attrs = entryTypes es := by
  rw [Option.or_eq_none_iff, undeclaredFault?_eq_none_iff, attributeFault?_eq_none_iff]
  constructor
  · rintro ⟨hdeclared, hpresent⟩
    refine Table.eq_of_mem_iff ha (Table.ascending_of_names_eq (names_entryTypes es).symm he) fun a => ?_
    constructor
    · intro hm
      obtain ⟨v, hv, ht⟩ := hpresent a hm
      exact List.mem_map.2 ⟨(a.1, v), Table.mem_of_find? hv, by rw [ht]⟩
    · intro hm
      obtain ⟨e, hmem, rfl⟩ := List.mem_map.1 hm
      obtain ⟨⟨k, t⟩, hb, hk⟩ := List.mem_map.1 (hdeclared e hmem)
      obtain ⟨v, hv, ht⟩ := hpresent (k, t) hb
      dsimp only at hk hv ht
      subst hk
      rw [Table.find?_of_mem he hmem] at hv
      cases hv
      rw [ht]
      exact hb
  · rintro rfl
    refine ⟨fun e hm => ?_, fun a hm => ?_⟩
    · rw [names_entryTypes]
      exact Table.mem_names hm
    · obtain ⟨e, hmem, rfl⟩ := List.mem_map.1 hm
      exact ⟨e.2, Table.find?_of_mem he hmem, rfl⟩

theorem shapeFault?_string {t : Ty} {s : String} : shapeFault? t (.string s) = none ↔ t = .string := by
  simp [shapeFault?]

theorem shapeFault?_number {t : Ty} {n : Number} : shapeFault? t (.number n) = none ↔ t = .number := by
  simp [shapeFault?]

theorem shapeFault?_bool {t : Ty} {b : Bool} : shapeFault? t (.bool b) = none ↔ t = .bool := by
  simp [shapeFault?]

theorem shapeFault?_list {t : Ty} {xs : List Value} :
    shapeFault? t (.list xs) = none ↔
      (∃ e, (t = .list e ∨ t = .set e) ∧ ∀ x ∈ xs, x.ty = e) ∨ t = .tuple (xs.map Value.ty) := by
  cases t with
  | list e => simp [shapeFault?, itemFault?_eq_none_iff]
  | set e => simp [shapeFault?, itemFault?_eq_none_iff]
  | tuple ts =>
    simp only [shapeFault?]
    split
    · rename_i h
      simp [tupleFault?_eq_none_iff h]
    · rename_i h
      have hne : ts ≠ xs.map Value.ty := fun he => h (by rw [he, List.length_map])
      simp [hne]
  | _ => simp [shapeFault?]

theorem shapeFault?_map {t : Ty} {es : List (String × Value)} (ht : t.Canonical) (he : Table.Ascending es) :
    shapeFault? t (.map es) = none ↔ (∃ e, t = .map e ∧ ∀ x ∈ es, x.2.ty = e) ∨ t = .object (entryTypes es) := by
  cases t with
  | map e => simp [shapeFault?, mapFault?_eq_none_iff]
  | object attrs =>
    rw [shapeFault?, objectFault_eq_none_iff ht.1 he]
    simp
  | _ => simp [shapeFault?]

/-- Only the types of the items decide whether they agree with a type. -/
theorem shapeFault?_list_congr {t : Ty} {xs ys : List Value} (h : xs.map Value.ty = ys.map Value.ty)
    (hx : shapeFault? t (.list xs) = none) : shapeFault? t (.list ys) = none := by
  rw [shapeFault?_list] at hx ⊢
  rcases hx with ⟨e, ht, he⟩ | ht
  · refine .inl ⟨e, ht, ?_⟩
    rw [← List.forall_mem_map (P := fun u => u = e)] at he ⊢
    rw [← h]
    exact he
  · rw [← h]
    exact .inr ht

theorem shapeFault?_map_congr {t : Ty} {es fs : List (String × Value)} (ht : t.Canonical) (he : Table.Ascending es)
    (h : entryTypes es = entryTypes fs) (hx : shapeFault? t (.map es) = none) : shapeFault? t (.map fs) = none := by
  have hf : Table.Ascending fs := by
    refine Table.ascending_of_names_eq ?_ he
    rw [← names_entryTypes, h, names_entryTypes]
  rw [shapeFault?_map ht he] at hx
  rw [shapeFault?_map ht hf, ← h]
  rcases hx with ⟨e, ht, hall⟩ | ht
  · refine .inl ⟨e, ht, fun x hm => ?_⟩
    have hmem : (x.1, x.2.ty) ∈ entryTypes es := h ▸ List.mem_map.2 ⟨x, hm, rfl⟩
    obtain ⟨y, hy, heq⟩ := List.mem_map.1 hmem
    rw [← hall y hy]
    exact (congrArg Prod.snd heq).symm
  · exact .inr ht

/-- The types and contents of well-formed known values; of the children it only says what they declare. -/
inductive Value.Shaped : Ty → Content → Prop
  | string (s : String) : Shaped .string (.string s)
  | number (n : Number) : Shaped .number (.number n)
  | bool (b : Bool) : Shaped .bool (.bool b)
  | list (e : Ty) (xs : List Value) : Shaped (.list e) (.list xs)
  | set (e : Ty) (xs : List Value) : Shaped (.set e) (.list xs)
  | tuple (xs : List Value) : Shaped (.tuple (xs.map Value.ty)) (.list xs)
  | map (e : Ty) (es : List (String × Value)) : Shaped (.map e) (.map es)
  | object (es : List (String × Value)) : Shaped (.object (entryTypes es)) (.map es)

theorem Value.WellFormed.shaped {t : Ty} {c : Content} (h : (Value.known t c).WellFormed) : Value.Shaped t c := by
  cases c with
  | string s =>
    obtain rfl := shapeFault?_string.1 h.2.1
    exact .string s
  | number n =>
    obtain rfl := shapeFault?_number.1 h.2.1
    exact .number n
  | bool b =>
    obtain rfl := shapeFault?_bool.1 h.2.1
    exact .bool b
  | list xs =>
    rcases shapeFault?_list.1 h.2.1 with ⟨e, rfl | rfl, -⟩ | rfl
    · exact .list e xs
    · exact .set e xs
    · exact .tuple xs
  | map es =>
    rcases (shapeFault?_map h.1 h.ascending).1 h.2.1 with ⟨e, rfl, -⟩ | rfl
    · exact .map e es
    · exact .object es

/-! ## Deciding -/

mutual

def Ty.decCanonical : (t : Ty) → Decidable t.Canonical
  | .string | .number | .bool => .isTrue trivial
  | .list t | .set t | .map t => t.decCanonical
  | .object attrs             =>
    have := Ty.decCanonicalAttrs attrs
    inferInstanceAs (Decidable (Table.Ascending attrs ∧ Ty.CanonicalAttrs attrs))
  | .tuple elems              => Ty.decCanonicalElems elems

def Ty.decCanonicalAttrs : (attrs : List (String × Ty)) → Decidable (Ty.CanonicalAttrs attrs)
  | []             => .isTrue trivial
  | (_, t) :: rest =>
    have := t.decCanonical
    have := Ty.decCanonicalAttrs rest
    inferInstanceAs (Decidable (t.Canonical ∧ Ty.CanonicalAttrs rest))

def Ty.decCanonicalElems : (elems : List Ty) → Decidable (Ty.CanonicalElems elems)
  | []        => .isTrue trivial
  | t :: rest =>
    have := t.decCanonical
    have := Ty.decCanonicalElems rest
    inferInstanceAs (Decidable (t.Canonical ∧ Ty.CanonicalElems rest))

end

instance (t : Ty) : Decidable t.Canonical := t.decCanonical

instance (t : Ty) (c : Content) : Decidable (shapeFault? t c = none) :=
  decidable_of_iff ((shapeFault? t c).isNone = true) Option.isNone_iff_eq_none

mutual

def Value.decWellFormed : (v : Value) → Decidable v.WellFormed
  | .null t    => inferInstanceAs (Decidable t.Canonical)
  | .unknown t => inferInstanceAs (Decidable t.Canonical)
  | .known t c =>
    have := Content.decWellFormed c
    inferInstanceAs (Decidable (t.Canonical ∧ shapeFault? t c = none ∧ c.WellFormed))

def Content.decWellFormed : (c : Content) → Decidable c.WellFormed
  | .string _ => .isTrue trivial
  | .number _ => .isTrue trivial
  | .bool _   => .isTrue trivial
  | .list xs  => Content.decItemsWellFormed xs
  | .map es   =>
    have := Content.decEntriesWellFormed es
    inferInstanceAs (Decidable (Table.Ascending es ∧ Content.EntriesWellFormed es))

def Content.decItemsWellFormed : (xs : List Value) → Decidable (Content.ItemsWellFormed xs)
  | []      => .isTrue trivial
  | x :: xs =>
    have := x.decWellFormed
    have := Content.decItemsWellFormed xs
    inferInstanceAs (Decidable (x.WellFormed ∧ Content.ItemsWellFormed xs))

def Content.decEntriesWellFormed : (es : List (String × Value)) → Decidable (Content.EntriesWellFormed es)
  | []           => .isTrue trivial
  | (_, x) :: es =>
    have := x.decWellFormed
    have := Content.decEntriesWellFormed es
    inferInstanceAs (Decidable (x.WellFormed ∧ Content.EntriesWellFormed es))

end

instance (v : Value) : Decidable v.WellFormed := v.decWellFormed

end ProviderProtocol
