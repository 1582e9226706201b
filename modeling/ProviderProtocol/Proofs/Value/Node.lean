import ProviderProtocol.Proofs.Value.Build
import ProviderProtocol.Value.Transform
/-!
# Nodes: their positions, their paths and their types

A node has two names.  Its *position* says which child to take at each level and survives every rewriting of the nodes
below and beside it.  Its *path* is how `Value.transform` addresses it: by attribute, key or index, and in a set by the
element itself.  The path of a node of a well-formed value leads through the type of the value to the type of the node
(`WellFormed.along?_node?`).
-/
namespace ProviderProtocol

/-! ## Types along a path -/

/-- The type of what a step selects in values of the type; none if the step does not fit. -/
def Ty.step? : Ty → Step → Option Ty
  | .object attrs, .attribute name => Table.find? name attrs
  | .map t, .key _                 => some t
  | .list t, .index _              => some t
  | .tuple ts, .index i            => if i < 0 then none else ts[i.toNat]?
  | .set t, .element _             => some t
  | _, _                           => none

def Ty.along? : Ty → Path → Option Ty
  | t, []        => some t
  | t, step :: p => (t.step? step).bind (·.along? p)

theorem Ty.along?_append : ∀ (t : Ty) (p r : Path), t.along? (p ++ r) = (t.along? p).bind (·.along? r)
  | _, [], _        => rfl
  | t, step :: p, r => by
    rw [List.cons_append, along?, along?]
    cases t.step? step with
    | none   => rfl
    | some u => exact along?_append u p r

theorem Ty.along?_singleton (t : Ty) (step : Step) : t.along? [step] = t.step? step := by
  rw [along?]
  cases t.step? step <;> rfl

theorem Ty.along?_concat {t u v : Ty} {p : Path} {step : Step} (hp : t.along? p = some u) (hs : u.step? step = some v) :
    t.along? (p ++ [step]) = some v := by
  rw [along?_append, hp]
  show (u.step? step).bind (·.along? []) = some v
  rw [hs]
  rfl

namespace Value

/-! ## Positions and paths -/

/-- At each level the child to take, counted from zero. -/
abbrev Position := List Nat

/-- The children of a node, each with the step by which `transform` addresses it. -/
def children : Value → List (Step × Value)
  | .known t (.list xs) => xs.mapIdx fun i x => (t.itemStep i x, x)
  | .known t (.map es)  => es.map fun e => (t.entryStep e.1, e.2)
  | _                   => []

/-- The node at a position, with its path. -/
def node? : Position → Value → Option (Path × Value)
  | [], v     => some ([], v)
  | i :: q, v => v.children[i]?.bind fun c => (node? q c.2).map fun n => (c.1 :: n.1, n.2)

theorem node?_cons {i : Nat} {q : Position} {v : Value} {p : Path} {x : Value} (h : node? (i :: q) v = some (p, x)) :
    ∃ step y r, v.children[i]? = some (step, y) ∧ node? q y = some (r, x) ∧ p = step :: r := by
  obtain ⟨⟨step, y⟩, hc, hm⟩ := Option.bind_eq_some_iff.1 h
  obtain ⟨⟨r, z⟩, hn, he⟩ := Option.map_eq_some_iff.1 hm
  cases he
  exact ⟨step, y, r, hc, hn, rfl⟩

/-- The node at a position, without its path. -/
def nodeAt? (q : Position) (v : Value) : Option Value := (node? q v).map Prod.snd

theorem nodeAt?_cons (i : Nat) (q : Position) (v : Value) :
    nodeAt? (i :: q) v = (v.children.map Prod.snd)[i]?.bind (nodeAt? q) := by
  rw [nodeAt?, node?, List.getElem?_map]
  cases v.children[i]? with
  | none   => rfl
  | some c =>
    show Option.map Prod.snd (Option.map _ (node? q c.2)) = Option.map Prod.snd (node? q c.2)
    rw [Option.map_map]
    rfl

/-! ## Types of nodes -/

theorem mem_children_list {t : Ty} {xs : List Value} {i : Nat} {c : Step × Value}
    (h : (Value.known t (.list xs)).children[i]? = some c) : xs[i]? = some c.2 ∧ c.1 = t.itemStep i c.2 := by
  rw [children, List.getElem?_mapIdx] at h
  obtain ⟨x, hx, rfl⟩ := Option.map_eq_some_iff.1 h
  exact ⟨hx, rfl⟩

theorem mem_children_map {t : Ty} {es : List (String × Value)} {i : Nat} {c : Step × Value}
    (h : (Value.known t (.map es)).children[i]? = some c) : ∃ k, (k, c.2) ∈ es ∧ c.1 = t.entryStep k := by
  rw [children, List.getElem?_map] at h
  obtain ⟨e, he, rfl⟩ := Option.map_eq_some_iff.1 h
  exact ⟨e.1, List.mem_of_getElem? he, rfl⟩

/-- The step to an item of a well-formed list, set or tuple fits its type and gives the type of the item. -/
theorem step?_itemStep {t : Ty} {xs : List Value} (h : shapeFault? t (.list xs) = none) {i : Nat} {x : Value}
    (hx : xs[i]? = some x) : t.step? (t.itemStep i x) = some x.ty := by
  have hmem : x ∈ xs := List.mem_of_getElem? hx
  rcases shapeFault?_list.1 h with ⟨e, rfl | rfl, he⟩ | rfl
  · exact congrArg some (he x hmem).symm
  · exact congrArg some (he x hmem).symm
  · show (if (i : Int) < 0 then none else (xs.map Value.ty)[(i : Int).toNat]?) = some x.ty
    rw [if_neg (by omega), Int.toNat_natCast, List.getElem?_map, hx]
    rfl

theorem step?_entryStep {t : Ty} {es : List (String × Value)} (ht : t.Canonical) (he : Table.Ascending es)
    (h : shapeFault? t (.map es) = none) {e : String × Value} (hm : e ∈ es) :
    t.step? (t.entryStep e.1) = some e.2.ty := by
  rcases (shapeFault?_map ht he).1 h with ⟨u, rfl, hu⟩ | rfl
  · exact congrArg some (hu e hm).symm
  · show Table.find? e.1 (entryTypes es) = some e.2.ty
    rw [entryTypes, Table.find?_map, Table.find?_of_mem he hm]
    rfl

/-- The step to a child of a well-formed node fits the type of the node and gives the type of the child. -/
theorem WellFormed.child {v : Value} (h : v.WellFormed) {i : Nat} {c : Step × Value} (hc : v.children[i]? = some c) :
    v.ty.step? c.1 = some c.2.ty ∧ c.2.WellFormed := by
  cases v with
  | null t    => cases hc
  | unknown t => cases hc
  | known t content =>
    cases content with
    | list xs =>
      obtain ⟨hx, hstep⟩ := mem_children_list hc
      rw [hstep]
      exact ⟨step?_itemStep h.2.1 hx, h.items c.2 (List.mem_of_getElem? hx)⟩
    | map es =>
      obtain ⟨k, hk, hstep⟩ := mem_children_map hc
      rw [hstep]
      exact ⟨step?_entryStep h.1 h.ascending h.2.1 hk, h.entries (k, c.2) hk⟩
    | string s => cases hc
    | number n => cases hc
    | bool b   => cases hc

theorem WellFormed.along?_node? : ∀ {q : Position} {v : Value} {p : Path} {x : Value}, v.WellFormed →
    node? q v = some (p, x) → v.ty.along? p = some x.ty ∧ x.WellFormed
  | [], v, p, x, h, hn     => by
    cases hn
    exact ⟨rfl, h⟩
  | i :: q, v, p, x, h, hn => by
    obtain ⟨step, y, r, hc, hr, rfl⟩ := node?_cons hn
    obtain ⟨hstep, hy⟩ := h.child hc
    obtain ⟨hty, hx⟩ := hy.along?_node? hr
    refine ⟨?_, hx⟩
    rw [Ty.along?, hstep]
    exact hty

/-! ## All nodes -/

theorem nodeAt?_append : ∀ (q r : Position) (v : Value), v.nodeAt? (q ++ r) = (v.nodeAt? q).bind (nodeAt? r)
  | [], r, v     => rfl
  | i :: q, r, v => by
    rw [List.cons_append, nodeAt?_cons, nodeAt?_cons]
    cases (v.children.map Prod.snd)[i]? with
    | none   => rfl
    | some c => exact nodeAt?_append q r c

theorem nodeAt?_concat {q : Position} {v x : Value} (h : v.nodeAt? q = some x) (i : Nat) :
    v.nodeAt? (q ++ [i]) = (x.children.map Prod.snd)[i]? := by
  rw [nodeAt?_append, h, Option.bind_some, nodeAt?_cons]
  cases (x.children.map Prod.snd)[i]? <;> rfl

theorem children_known (t : Ty) (c : Content) : (known t c).children.map Prod.snd = c.parts := by
  cases c with
  | list xs =>
    apply List.ext_getElem?
    intro i
    simp only [children, Content.parts, List.getElem?_map, List.getElem?_mapIdx, Option.map_map]
    exact Option.map_id_apply
  | map es =>
    rw [children, List.map_map]
    rfl
  | string s => rfl
  | number n => rfl
  | bool b   => rfl

/-- The value and every node below it have the property. -/
def Throughout (P : Value → Prop) (v : Value) : Prop := ∀ q x, v.nodeAt? q = some x → P x

theorem throughout_iff {P : Value → Prop} {v : Value} :
    v.Throughout P ↔ P v ∧ ∀ x ∈ v.children.map Prod.snd, x.Throughout P := by
  constructor
  · intro h
    refine ⟨h [] v rfl, fun x hx q y hq => ?_⟩
    obtain ⟨i, hi⟩ := List.getElem?_of_mem hx
    refine h (i :: q) y ?_
    rw [nodeAt?_cons, hi]
    exact hq
  · rintro ⟨hv, hchildren⟩ q x hq
    cases q with
    | nil =>
      cases hq
      exact hv
    | cons i q =>
      rw [nodeAt?_cons] at hq
      obtain ⟨c, hc, hq⟩ := Option.bind_eq_some_iff.1 hq
      exact hchildren c (List.mem_of_getElem? hc) q x hq

theorem throughout_null_iff {P : Value → Prop} {t : Ty} : (null t).Throughout P ↔ P (null t) := by
  rw [throughout_iff]
  exact and_iff_left (List.forall_mem_nil _)

theorem throughout_unknown_iff {P : Value → Prop} {t : Ty} : (unknown t).Throughout P ↔ P (unknown t) := by
  rw [throughout_iff]
  exact and_iff_left (List.forall_mem_nil _)

theorem throughout_known_iff {P : Value → Prop} {t : Ty} {c : Content} :
    (known t c).Throughout P ↔ P (known t c) ∧ ∀ x ∈ c.parts, x.Throughout P := by
  rw [throughout_iff, children_known]

end Value

end ProviderProtocol
