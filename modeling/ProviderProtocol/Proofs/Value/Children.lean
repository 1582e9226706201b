import ProviderProtocol.Proofs.Value.Rewrite
/-!
# Nodes and their children

Lists, sets, tuples, maps and objects differ in the steps to their children and in what children they take, and in
nothing else.  A well-formed node takes other children in the place of its own exactly if they are of the same types
(`WellFormed.withChildren_isOk_iff`); and a traversal does one and the same at every node: the children in order, then
the node with what has become of them (`transformAt_eq`).
-/
namespace ProviderProtocol.Value

/-- A property that passes from the children of a node to the node holds of every value. -/
@[elab_as_elim]
theorem children_induction {P : Value → Prop} (node : ∀ v, (∀ c ∈ v.children, P c.2) → P v) (v : Value) : P v := by
  induction v using Value.node_induction with
  | list t xs ih =>
    refine node _ fun c hc => ?_
    obtain ⟨i, hi⟩ := List.getElem?_of_mem hc
    exact ih c.2 (List.mem_of_getElem? (mem_children_list hi).1)
  | map t es ih =>
    refine node _ fun c hc => ?_
    obtain ⟨i, hi⟩ := List.getElem?_of_mem hc
    obtain ⟨k, hk, -⟩ := mem_children_map hi
    exact ih (k, c.2) hk
  | _ => exact node _ (List.forall_mem_nil _)

/-! ## Children that fit

Whether children fit depends on their types alone. -/

theorem map_ty_eq {xs : List Value} {e : Ty} (h : ∀ x ∈ xs, x.ty = e) :
    xs.map Value.ty = List.replicate xs.length e := List.map_eq_replicate_iff.2 h

/-- Items fit in the place of others exactly if they have their types. -/
theorem items_fit_iff {t : Ty} {xs ys : List Value} (hlen : xs.length = ys.length)
    (h : shapeFault? t (.list xs) = none) : shapeFault? t (.list ys) = none ↔ xs.map Value.ty = ys.map Value.ty := by
  refine ⟨fun hy => ?_, fun hty => shapeFault?_list_congr hty h⟩
  rcases shapeFault?_list.1 h with ⟨e, ht, hx⟩ | rfl
  · rcases shapeFault?_list.1 hy with ⟨e', ht', hy⟩ | rfl
    · have he : e = e' := by rcases ht with rfl | rfl <;> rcases ht' with ht' | ht' <;> cases ht' <;> rfl
      rw [map_ty_eq hx, map_ty_eq hy, hlen, he]
    · rcases ht with ht | ht <;> cases ht
  · rcases shapeFault?_list.1 hy with ⟨e', ht' | ht', -⟩ | ht
    · cases ht'
    · cases ht'
    · exact Ty.tuple.inj ht

theorem map_snd_entryTypes (es : List (String × Value)) :
    (entryTypes es).map Prod.snd = (es.map Prod.snd).map Value.ty := by
  rw [entryTypes, List.map_map, List.map_map]
  rfl

/-- Entries fit in the place of others of their names exactly if they have their types. -/
theorem entries_fit_iff {t : Ty} {es fs : List (String × Value)} (ht : t.Canonical) (hasc : Table.Ascending es)
    (hnames : Table.names es = Table.names fs) (h : shapeFault? t (.map es) = none) :
    shapeFault? t (.map fs) = none ↔ (es.map Prod.snd).map Value.ty = (fs.map Prod.snd).map Value.ty := by
  have hascf : Table.Ascending fs := Table.ascending_of_names_eq hnames hasc
  have hlen : (es.map Prod.snd).length = (fs.map Prod.snd).length := by
    rw [List.length_map, List.length_map, ← Table.length_names es, ← Table.length_names fs, hnames]
  constructor
  · intro hf
    rcases (shapeFault?_map ht hasc).1 h with ⟨e, rfl, hx⟩ | rfl
    · rcases (shapeFault?_map ht hascf).1 hf with ⟨e', he, hy⟩ | he
      · cases he
        rw [map_ty_eq (List.forall_mem_map.2 hx), map_ty_eq (List.forall_mem_map.2 hy), hlen]
      · cases he
    · rcases (shapeFault?_map ht hascf).1 hf with ⟨e', he, -⟩ | he
      · cases he
      · rw [← map_snd_entryTypes, ← map_snd_entryTypes, Ty.object.inj he]
  · intro hty
    rw [← map_snd_entryTypes, ← map_snd_entryTypes] at hty
    rw [← names_entryTypes es, ← names_entryTypes fs] at hnames
    exact shapeFault?_map_congr ht hasc (Table.eq_of_names_eq hnames hty) h

/-! ## A node with other children -/

/-- The node with these children, checked again; one that has no children stays as it is. -/
def withChildren : Value → List Value → Except ShapeFault Value
  | .known t (.list _), ys => of t (.list ys)
  | .known t (.map es), ys => of t (.map ((Table.names es).zip ys))
  | v, _                   => .ok v

section

variable {v : Value} {ys : List Value} (hlen : v.children.length = ys.length)

include hlen

theorem withChildren_eq_ok {x : Value} (h : v.withChildren ys = .ok x) :
    v.SameNode x ∧ x.children.map Prod.snd = ys := by
  have hleaf : v.children = [] → [] = ys := fun he => by
    rw [he] at hlen
    exact (List.eq_nil_of_length_eq_zero hlen.symm).symm
  cases v with
  | null t =>
    cases h
    exact ⟨rfl, hleaf rfl⟩
  | unknown t =>
    cases h
    exact ⟨rfl, hleaf rfl⟩
  | known t c =>
    cases c with
    | list xs =>
      obtain ⟨-, rfl⟩ := of_eq_ok.1 h
      rw [children, List.length_mapIdx] at hlen
      rw [children_known]
      exact ⟨⟨rfl, hlen⟩, rfl⟩
    | map es =>
      obtain ⟨-, rfl⟩ := of_eq_ok.1 h
      rw [children, List.length_map, ← Table.length_names] at hlen
      rw [children_known]
      exact ⟨⟨rfl, (Table.names_zip hlen).symm⟩, List.map_snd_zip (Nat.le_of_eq hlen.symm)⟩
    | _ =>
      cases h
      exact ⟨rfl, hleaf rfl⟩

/-- **A well-formed node takes exactly children of the types that its own have.** -/
theorem WellFormed.withChildren_isOk_iff (hv : v.WellFormed) :
    (∃ x, v.withChildren ys = .ok x) ↔ (v.children.map Prod.snd).map Value.ty = ys.map Value.ty := by
  have hleaf : v.children = [] → (v.children.map Prod.snd).map Value.ty = ys.map Value.ty := fun he => by
    rw [he] at hlen ⊢
    rw [List.eq_nil_of_length_eq_zero hlen.symm]
    rfl
  have hof : ∀ t c, (∃ x, of t c = .ok x) ↔ shapeFault? t c = none := fun t c => by simp [of_eq_ok]
  cases v with
  | null t    => exact iff_of_true ⟨_, rfl⟩ (hleaf rfl)
  | unknown t => exact iff_of_true ⟨_, rfl⟩ (hleaf rfl)
  | known t c =>
    cases c with
    | list xs =>
      rw [children, List.length_mapIdx] at hlen
      rw [children_known]
      exact (hof _ _).trans (items_fit_iff hlen hv.2.1)
    | map es =>
      rw [children, List.length_map, ← Table.length_names] at hlen
      have hfit := entries_fit_iff hv.1 hv.ascending (Table.names_zip hlen).symm hv.2.1
      rw [List.map_snd_zip (Nat.le_of_eq hlen.symm)] at hfit
      rw [children_known]
      exact (hof _ _).trans hfit
    | _ => exact iff_of_true ⟨_, rfl⟩ (hleaf rfl)

end

theorem SameNode.ty_eq {v w : Value} (h : v.SameNode w) : v.ty = w.ty := by
  unfold SameNode at h
  split at h
  · exact h.1
  · exact h.1
  · exact congrArg Value.ty h

/-- A node is made of its type and state and its children. -/
theorem SameNode.eq_of_children {v w : Value} (h : v.SameNode w)
    (hchildren : v.children.map Prod.snd = w.children.map Prod.snd) : v = w := by
  unfold SameNode at h
  split at h
  · obtain ⟨rfl, -⟩ := h
    rw [children_known, children_known] at hchildren
    exact congrArg (fun xs => known _ (.list xs)) hchildren
  · obtain ⟨rfl, hnames⟩ := h
    rw [children_known, children_known] at hchildren
    rw [Table.eq_of_names_eq hnames hchildren]
  · exact h

theorem SameNode.length_children {v w : Value} (h : v.SameNode w) : v.children.length = w.children.length := by
  unfold SameNode at h
  split at h
  · rw [children, children, List.length_mapIdx, List.length_mapIdx]
    exact h.2
  · rw [children, children, List.length_map, List.length_map, ← Table.length_names, h.2, Table.length_names]
  · rw [h]

/-! ## One node of a traversal -/

section

variable {m : Type → Type} [Monad m] [LawfulMonad m] [MonadExceptOf ProviderError m] (visit : Path → Value → m Value)

/-- A content that does not fit is a type mismatch. -/
def orMismatch : Except ShapeFault Value → m Value
  | .ok v      => pure v
  | .error why => throw (ProviderError.typeMismatch why)

def transformChildren (path : Path) (cs : List (Step × Value)) : m (List Value) :=
  cs.mapM fun c => transformAt visit (path ++ [c.1]) c.2

theorem transformItems_eq (path : Path) (t : Ty) : ∀ (i : Nat) (xs : List Value),
    transformItems visit path t i xs =
      transformChildren visit path (xs.mapIdx fun j x => (t.itemStep (i + j) x, x))
  | _, []      => rfl
  | i, x :: xs => by
    have hshift : ∀ j, i + 1 + j = i + (j + 1) := fun j => by omega
    rw [transformItems, transformItems_eq path t (i + 1) xs, List.mapIdx_cons]
    simp only [transformChildren, List.mapM_cons, hshift, Nat.add_zero]

theorem transformEntries_eq (path : Path) (t : Ty) : ∀ es : List (String × Value),
    transformEntries visit path t es =
      (Table.names es).zip <$> transformChildren visit path (es.map fun e => (t.entryStep e.1, e.2))
  | []           => by simp [transformEntries, transformChildren]
  | (k, x) :: es => by
    rw [transformEntries, transformEntries_eq path t es]
    simp [transformChildren, Table.names]

/-- **One node of a traversal**: its children in order, then the visit, which is shown what has become of them. -/
theorem transformAt_eq (path : Path) (v : Value) :
    transformAt visit path v =
      (transformChildren visit path v.children >>= fun ys => orMismatch (v.withChildren ys)) >>= visit path := by
  cases v with
  | null t    => simp [transformAt, transformChildren, children, withChildren, orMismatch]
  | unknown t => simp [transformAt, transformChildren, children, withChildren, orMismatch]
  | known t c =>
    cases c with
    | list xs =>
      rw [transformAt, transformItems_eq, children]
      simp only [Nat.zero_add, bind_assoc]
      rfl
    | map es =>
      rw [transformAt, transformEntries_eq, children]
      simp only [bind_map_left, bind_assoc]
      rfl
    | _ => simp [transformAt, transformChildren, children, withChildren, orMismatch]

end

end ProviderProtocol.Value
