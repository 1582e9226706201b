import ProviderProtocol.Proofs.Value.Node
/-!
# Rewriting every node

`rewriteAt f` is the bottom-up rewriting of a value by a function that cannot fail.  It is what `transformAt` returns
if its visits agree with `f` and `f` keeps types (`transformAt_eq_ok`): the children that a node is rebuilt from have
the types of those it had, so no rebuilding is refused.

Where `f` leaves the nodes above a node alone, the result holds in the position of that node what `f` makes of it
(`nodeAt?_rewriteAt`); and if `f` replaces nodes by nodes without children only, the result has no other nodes
(`node?_of_nodeAt?_rewriteAt`).
-/
namespace ProviderProtocol.Value

/-- The same type and state, and children in the same positions; what the children are is left open. -/
def SameNode : Value → Value → Prop
  | .known t (.list xs), .known u (.list ys) => t = u ∧ xs.length = ys.length
  | .known t (.map es), .known u (.map fs)   => t = u ∧ Table.names es = Table.names fs
  | v, w                                     => v = w

mutual

def rewriteAt (f : Path → Value → Value) (path : Path) : Value → Value
  | .null t              => f path (.null t)
  | .unknown t           => f path (.unknown t)
  | .known t (.list xs)  => f path (.known t (.list (rewriteItems f path t 0 xs)))
  | .known t (.map es)   => f path (.known t (.map (rewriteEntries f path t es)))
  | .known t (.string s) => f path (.known t (.string s))
  | .known t (.number n) => f path (.known t (.number n))
  | .known t (.bool b)   => f path (.known t (.bool b))

def rewriteItems (f : Path → Value → Value) (path : Path) (t : Ty) : Nat → List Value → List Value
  | _, []      => []
  | i, x :: xs => rewriteAt f (path ++ [t.itemStep i x]) x :: rewriteItems f path t (i + 1) xs

def rewriteEntries (f : Path → Value → Value) (path : Path) (t : Ty) : List (String × Value) → List (String × Value)
  | []           => []
  | (k, x) :: es => (k, rewriteAt f (path ++ [t.entryStep k]) x) :: rewriteEntries f path t es

end

/-- A node with its children rewritten, before it is visited itself. -/
def rebuilt (f : Path → Value → Value) (path : Path) : Value → Value
  | .known t (.list xs) => .known t (.list (rewriteItems f path t 0 xs))
  | .known t (.map es)  => .known t (.map (rewriteEntries f path t es))
  | v                   => v

section

variable {f : Path → Value → Value}

theorem rewriteAt_eq (path : Path) (v : Value) : rewriteAt f path v = f path (rebuilt f path v) := by
  cases v with
  | null t    => rfl
  | unknown t => rfl
  | known t c => cases c <;> rfl

theorem rewriteItems_eq (path : Path) (t : Ty) : ∀ (i : Nat) (xs : List Value),
    rewriteItems f path t i xs = xs.mapIdx fun j x => rewriteAt f (path ++ [t.itemStep (i + j) x]) x
  | _, []      => rfl
  | i, x :: xs => by
    rw [rewriteItems, rewriteItems_eq path t (i + 1) xs, List.mapIdx_cons]
    have hshift : ∀ j, i + 1 + j = i + (j + 1) := fun j => by omega
    simp only [hshift, Nat.add_zero]

theorem rewriteEntries_eq (path : Path) (t : Ty) : ∀ es : List (String × Value),
    rewriteEntries f path t es = es.map fun e => (e.1, rewriteAt f (path ++ [t.entryStep e.1]) e.2)
  | []           => rfl
  | (k, x) :: es => by rw [rewriteEntries, rewriteEntries_eq path t es, List.map_cons]

theorem rewriteItems_fixed {path : Path} {t : Ty} : ∀ {i : Nat} {xs : List Value},
    (∀ j x, xs[j]? = some x → rewriteAt f (path ++ [t.itemStep (i + j) x]) x = x) → rewriteItems f path t i xs = xs
  | _, [], _      => rfl
  | i, x :: xs, h => by
    have hx := h 0 x rfl
    have hxs : rewriteItems f path t (i + 1) xs = xs := by
      refine rewriteItems_fixed fun j y hy => ?_
      rw [Nat.add_assoc, Nat.add_comm 1 j]
      exact h (j + 1) y hy
    rw [Nat.add_zero] at hx
    rw [rewriteItems, hx, hxs]

theorem rewriteEntries_fixed {path : Path} {t : Ty} : ∀ {es : List (String × Value)},
    (∀ e ∈ es, rewriteAt f (path ++ [t.entryStep e.1]) e.2 = e.2) → rewriteEntries f path t es = es
  | [], _           => rfl
  | (k, x) :: es, h => by
    obtain ⟨hx, hes⟩ := List.forall_mem_cons.1 h
    rw [rewriteEntries, rewriteEntries_fixed hes]
    exact congrArg (fun y => (k, y) :: es) hx

/-! ## Nodes of the result -/

theorem children_rebuilt (path : Path) (v : Value) :
    (rebuilt f path v).children.map Prod.snd = v.children.map fun c => rewriteAt f (path ++ [c.1]) c.2 := by
  cases v with
  | null t    => rfl
  | unknown t => rfl
  | known t c =>
    cases c with
    | list xs =>
      rw [rebuilt, rewriteItems_eq]
      apply List.ext_getElem?
      intro i
      simp only [children, List.getElem?_map, List.getElem?_mapIdx, Option.map_map, Nat.zero_add]
      rfl
    | map es =>
      rw [rebuilt, children, children, rewriteEntries_eq, List.map_map, List.map_map, List.map_map]
      rfl
    | string s => rfl
    | number n => rfl
    | bool b   => rfl

theorem sameNode_rebuilt (path : Path) (v : Value) : v.SameNode (rebuilt f path v) := by
  cases v with
  | null t    => rfl
  | unknown t => rfl
  | known t c =>
    cases c with
    | list xs =>
      refine ⟨rfl, ?_⟩
      rw [rewriteItems_eq, List.length_mapIdx]
    | map es =>
      refine ⟨rfl, ?_⟩
      rw [rewriteEntries_eq]
      unfold Table.names
      rw [List.map_map]
      rfl
    | string s => rfl
    | number n => rfl
    | bool b   => rfl

theorem nodeAt?_cons_rebuilt (i : Nat) (q : Position) (path : Path) (v : Value) :
    nodeAt? (i :: q) (rebuilt f path v) =
      v.children[i]?.bind fun c => nodeAt? q (rewriteAt f (path ++ [c.1]) c.2) := by
  rw [nodeAt?_cons, children_rebuilt, List.getElem?_map]
  cases v.children[i]? with
  | none   => rfl
  | some c => rfl

/-- If the nodes above a node are left alone, the result has in its position what becomes of the node. -/
theorem nodeAt?_rewriteAt : ∀ {q : Position} {path : Path} {v : Value} {p : Path} {x : Value},
    node? q v = some (p, x) → (∀ p₁ p₂, p = p₁ ++ p₂ → p₂ ≠ [] → ∀ w, f (path ++ p₁) w = w) →
    nodeAt? q (rewriteAt f path v) = some (rewriteAt f (path ++ p) x)
  | [], path, v, p, x, h, _       => by
    cases h
    rw [List.append_nil]
    rfl
  | i :: q, path, v, p, x, h, hid => by
    obtain ⟨step, y, r, hc, hr, rfl⟩ := node?_cons h
    have hroot : f path (rebuilt f path v) = rebuilt f path v := by
      have := hid [] (step :: r) rfl (List.cons_ne_nil _ _) (rebuilt f path v)
      rwa [List.append_nil] at this
    have hbelow : ∀ p₁ p₂, r = p₁ ++ p₂ → p₂ ≠ [] → ∀ w, f ((path ++ [step]) ++ p₁) w = w := by
      intro p₁ p₂ he hne w
      rw [List.append_assoc]
      exact hid (step :: p₁) p₂ (by rw [he, List.cons_append]) hne w
    rw [rewriteAt_eq, hroot, nodeAt?_cons_rebuilt, hc]
    show nodeAt? q (rewriteAt f (path ++ [step]) y) = _
    rw [nodeAt?_rewriteAt hr hbelow, List.append_assoc]
    rfl

/-- If a node is left alone or loses its children, every node of the result stands in the position of a node whose
ancestors were left alone. -/
theorem node?_of_nodeAt?_rewriteAt (hf : ∀ p w, f p w = w ∨ (f p w).children = []) :
    ∀ {q : Position} {path : Path} {v w : Value}, nodeAt? q (rewriteAt f path v) = some w →
    ∃ p x, node? q v = some (p, x) ∧ ∀ p₁ p₂, p = p₁ ++ p₂ → p₂ ≠ [] → ∃ u, f (path ++ p₁) u = u ∧ u.children ≠ []
  | [], path, v, w, _     => by
    refine ⟨[], v, rfl, fun p₁ p₂ he hne => ?_⟩
    exact absurd (List.append_eq_nil_iff.1 he.symm).2 hne
  | i :: q, path, v, w, h => by
    rw [rewriteAt_eq] at h
    have hchildren : (f path (rebuilt f path v)).children ≠ [] := by
      intro he
      rw [nodeAt?_cons, he] at h
      cases h
    -- the result has a node below this one, so this one cannot have been replaced
    have hroot : f path (rebuilt f path v) = rebuilt f path v := (hf _ _).resolve_right hchildren
    rw [hroot, nodeAt?_cons_rebuilt] at h
    obtain ⟨⟨step, y⟩, hc, hy⟩ := Option.bind_eq_some_iff.1 h
    obtain ⟨r, x, hr, hbelow⟩ := node?_of_nodeAt?_rewriteAt hf hy
    refine ⟨step :: r, x, ?_, fun p₁ p₂ he hne => ?_⟩
    · rw [node?, hc]
      show (node? q y).map _ = _
      rw [hr]
      rfl
    · cases p₁ with
      | nil =>
        rw [List.append_nil]
        rw [hroot] at hchildren
        exact ⟨_, hroot, hchildren⟩
      | cons s p₁ =>
        rw [List.cons_append, List.cons.injEq] at he
        obtain ⟨rfl, he⟩ := he
        have hu := hbelow p₁ p₂ he hne
        rwa [List.append_assoc] at hu

end

/-! ## Types and shapes -/

/-- A visit keeps the type of each node and its being well-formed. -/
structure Keeps (f : Path → Value → Value) : Prop where
  ty : ∀ p v, (f p v).ty = v.ty
  wellFormed : ∀ p v, v.WellFormed → (f p v).WellFormed

section

variable {f : Path → Value → Value} (hf : Keeps f)

include hf

theorem Keeps.rewriteAt_ty (path : Path) (v : Value) : (rewriteAt f path v).ty = v.ty := by
  rw [rewriteAt_eq, hf.ty]
  cases v with
  | null t    => rfl
  | unknown t => rfl
  | known t c => cases c <;> rfl

theorem Keeps.items_ty (path : Path) (t : Ty) : ∀ (i : Nat) (xs : List Value),
    xs.map Value.ty = (rewriteItems f path t i xs).map Value.ty
  | _, []      => rfl
  | i, x :: xs => by
    rw [rewriteItems, List.map_cons, List.map_cons, hf.rewriteAt_ty, ← Keeps.items_ty path t (i + 1) xs]

theorem Keeps.entries_ty (path : Path) (t : Ty) : ∀ es : List (String × Value),
    entryTypes es = entryTypes (rewriteEntries f path t es)
  | []           => rfl
  | (k, x) :: es => by
    have hes := Keeps.entries_ty path t es
    unfold entryTypes at hes ⊢
    rw [rewriteEntries, List.map_cons, List.map_cons, hf.rewriteAt_ty, ← hes]

theorem Keeps.list_wellFormed {t : Ty} {xs : List Value} (h : (known t (.list xs)).WellFormed) (path : Path)
    (hxs : ∀ x ∈ xs, ∀ p, (rewriteAt f p x).WellFormed) :
    (known t (.list (rewriteItems f path t 0 xs))).WellFormed := by
  refine ⟨h.1, shapeFault?_list_congr (hf.items_ty path t 0 xs) h.2.1, ?_⟩
  refine Content.itemsWellFormed_iff.2 fun y hy => ?_
  rw [rewriteItems_eq] at hy
  obtain ⟨i, hi, rfl⟩ := List.mem_mapIdx.1 hy
  exact hxs _ (List.getElem_mem hi) _

theorem Keeps.map_wellFormed {t : Ty} {es : List (String × Value)} (h : (known t (.map es)).WellFormed) (path : Path)
    (hes : ∀ e ∈ es, ∀ p, (rewriteAt f p e.2).WellFormed) :
    (known t (.map (rewriteEntries f path t es))).WellFormed := by
  have hnames : Table.names es = Table.names (rewriteEntries f path t es) := by
    rw [← names_entryTypes, hf.entries_ty path t es, names_entryTypes]
  refine ⟨h.1, shapeFault?_map_congr h.1 h.ascending (hf.entries_ty path t es) h.2.1,
    Table.ascending_of_names_eq hnames h.ascending, ?_⟩
  refine Content.entriesWellFormed_iff.2 fun e he => ?_
  rw [rewriteEntries_eq] at he
  obtain ⟨d, hd, rfl⟩ := List.mem_map.1 he
  exact hes d hd _

theorem Keeps.rewriteAt_wellFormed {v : Value} : v.WellFormed → ∀ (path : Path), (rewriteAt f path v).WellFormed := by
  induction v using Value.node_induction with
  | null t => exact fun h path => hf.wellFormed _ _ h
  | unknown t => exact fun h path => hf.wellFormed _ _ h
  | string t s => exact fun h path => hf.wellFormed _ _ h
  | number t n => exact fun h path => hf.wellFormed _ _ h
  | bool t b => exact fun h path => hf.wellFormed _ _ h
  | list t xs ih =>
    exact fun h path => hf.wellFormed _ _ (hf.list_wellFormed h path fun x hx => ih x hx (h.items x hx))
  | map t es ih =>
    exact fun h path => hf.wellFormed _ _ (hf.map_wellFormed h path fun e he => ih e he (h.entries e he))

/-! ## The traversal of `transform` -/

theorem Keeps.rebuild_items {t : Ty} {xs : List Value} (h : (known t (.list xs)).WellFormed) (path : Path) :
    (rebuild t (.list (rewriteItems f path t 0 xs)) : Except ProviderError Value) =
      .ok (known t (.list (rewriteItems f path t 0 xs))) := by
  rw [rebuild, of, shapeFault?_list_congr (hf.items_ty path t 0 xs) h.2.1]
  rfl

theorem Keeps.rebuild_entries {t : Ty} {es : List (String × Value)} (h : (known t (.map es)).WellFormed) (path : Path) :
    (rebuild t (.map (rewriteEntries f path t es)) : Except ProviderError Value) =
      .ok (known t (.map (rewriteEntries f path t es))) := by
  rw [rebuild, of, shapeFault?_map_congr h.1 h.ascending (hf.entries_ty path t es) h.2.1]
  rfl

omit hf

variable {visit : Path → Value → Except ProviderError Value}

theorem transformItems_eq_ok {path : Path} {t : Ty} : ∀ {i : Nat} {xs : List Value},
    (∀ j x, xs[j]? = some x → transformAt visit (path ++ [t.itemStep (i + j) x]) x =
      .ok (rewriteAt f (path ++ [t.itemStep (i + j) x]) x)) →
    transformItems visit path t i xs = .ok (rewriteItems f path t i xs)
  | _, [], _      => rfl
  | i, x :: xs, h => by
    have hx := h 0 x rfl
    have hxs : transformItems visit path t (i + 1) xs = .ok (rewriteItems f path t (i + 1) xs) := by
      refine transformItems_eq_ok fun j y hy => ?_
      rw [Nat.add_assoc, Nat.add_comm 1 j]
      exact h (j + 1) y hy
    rw [Nat.add_zero] at hx
    rw [transformItems, hx, hxs]
    rfl

theorem transformEntries_eq_ok {path : Path} {t : Ty} : ∀ {es : List (String × Value)},
    (∀ e ∈ es, transformAt visit (path ++ [t.entryStep e.1]) e.2 = .ok (rewriteAt f (path ++ [t.entryStep e.1]) e.2)) →
    transformEntries visit path t es = .ok (rewriteEntries f path t es)
  | [], _           => rfl
  | (k, x) :: es, h => by
    rw [transformEntries, h (k, x) List.mem_cons_self,
      transformEntries_eq_ok fun e he => h e (List.mem_cons_of_mem _ he)]
    rfl

include hf

/-- **No rebuilding is refused**: where the visits agree with a function that keeps types, `transformAt` returns the
rewriting by it.  The visits have to agree on well-formed nodes only, and on paths through the type of the whole. -/
theorem Keeps.transformAt_eq_ok {T : Ty}
    (hvisit : ∀ p w, T.along? p = some w.ty → w.WellFormed → visit p w = .ok (f p w)) {v : Value} :
    ∀ (path : Path), T.along? path = some v.ty → v.WellFormed →
      transformAt visit path v = .ok (rewriteAt f path v) := by
  induction v using Value.node_induction with
  | null t => exact fun path hp h => hvisit path _ hp h
  | unknown t => exact fun path hp h => hvisit path _ hp h
  | string t s => exact fun path hp h => hvisit path _ hp h
  | number t n => exact fun path hp h => hvisit path _ hp h
  | bool t b => exact fun path hp h => hvisit path _ hp h
  | list t xs ih =>
    intro path hp h
    -- the step to an item names the item as it was, so its path leads to its type whatever became of its siblings
    have hitems : transformItems visit path t 0 xs = .ok (rewriteItems f path t 0 xs) := by
      refine transformItems_eq_ok fun j x hx => ?_
      have hmem : x ∈ xs := List.mem_of_getElem? hx
      rw [Nat.zero_add]
      exact ih x hmem _ (Ty.along?_concat hp (step?_itemStep h.2.1 hx)) (h.items x hmem)
    have hnode := hf.list_wellFormed h path fun x hx => hf.rewriteAt_wellFormed (h.items x hx)
    rw [transformAt, hitems]
    show (rebuild t (.list (rewriteItems f path t 0 xs)) >>= visit path) = _
    rw [hf.rebuild_items h path]
    exact hvisit path _ hp hnode
  | map t es ih =>
    intro path hp h
    have hentries : transformEntries visit path t es = .ok (rewriteEntries f path t es) := by
      refine transformEntries_eq_ok fun e he => ?_
      exact ih e he _ (Ty.along?_concat hp (step?_entryStep h.1 h.ascending h.2.1 he)) (h.entries e he)
    have hnode := hf.map_wellFormed h path fun e he => hf.rewriteAt_wellFormed (h.entries e he)
    rw [transformAt, hentries]
    show (rebuild t (.map (rewriteEntries f path t es)) >>= visit path) = _
    rw [hf.rebuild_entries h path]
    exact hvisit path _ hp hnode

end

end ProviderProtocol.Value
