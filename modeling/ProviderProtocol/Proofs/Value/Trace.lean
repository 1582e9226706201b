import ProviderProtocol.Proofs.Value.Children
/-!
# Traces of traversals

A trace is the list of the calls of a traversal, each with the position of the node that it is at.  `Traced` says what
every such list is like, however the traversal ends: the calls come in the order of the visits (`Before`), none is left
out before another, and each shows its node with what the calls at the children have answered.

A trace is put together from those of the children, one after the other (`Traced.cons`), and the call at the node itself
(`Traced.root`).
-/
namespace ProviderProtocol.Value

/-! ## The order of the visits -/

/-- What is below a node comes before it, and what is below a child before what is below the next. -/
def Before : Position → Position → Prop
  | i :: q, j :: r => i < j ∨ i = j ∧ Before q r
  | _ :: _, []     => True
  | [], _          => False

theorem not_before_self : ∀ q : Position, ¬ Before q q
  | []     => id
  | i :: q => by
    rintro (h | ⟨-, h⟩)
    · exact Nat.lt_irrefl i h
    · exact not_before_self q h

theorem before_append : ∀ (q : Position) {r : Position}, r ≠ [] → Before (q ++ r) q
  | [], [], h     => absurd rfl h
  | [], _ :: _, _ => trivial
  | _ :: q, _, h  => .inr ⟨rfl, before_append q h⟩

/-- Children come before their parents and siblings in their order, with all that is below them. -/
theorem before_iff {q r : Position} :
    Before q r ↔ (∃ s, s ≠ [] ∧ q = r ++ s) ∨ ∃ p i j s t, i < j ∧ q = p ++ i :: s ∧ r = p ++ j :: t := by
  constructor
  · intro h
    induction q generalizing r with
    | nil => exact h.elim
    | cons i q ih =>
      cases r with
      | nil      => exact .inl ⟨i :: q, List.cons_ne_nil _ _, rfl⟩
      | cons j r =>
        rcases h with hlt | ⟨rfl, h⟩
        · exact .inr ⟨[], i, j, q, r, hlt, rfl, rfl⟩
        · rcases ih h with ⟨s, hs, rfl⟩ | ⟨p, k, l, s, t, hlt, rfl, rfl⟩
          · exact .inl ⟨s, hs, rfl⟩
          · exact .inr ⟨i :: p, k, l, s, t, hlt, rfl, rfl⟩
  · rintro (⟨s, hs, rfl⟩ | ⟨p, i, j, s, t, hlt, rfl, rfl⟩)
    · exact before_append r hs
    · induction p with
      | nil         => exact .inl hlt
      | cons k p ih => exact .inr ⟨rfl, ih⟩

/-! ## Calls in their places -/

/-- A call of a callback: the path and the node that it is given, and its answer. -/
structure Visit where
  path : Path
  node : Value
  answer : Except ProviderError Value

def Visit.Succeeds (c : Visit) : Prop := ∃ y, c.answer = .ok y

abbrev Trace := List (Position × Visit)

/-- The calls are at nodes, in the order of the visits. -/
structure Traced (path : Path) (at? : Position → Option (Path × Value)) (trace : Trace) : Prop where
  /-- A call is given the path of a node, and this node but for its children; -/
  node : ∀ {q c}, (q, c) ∈ trace → ∃ p x, at? q = some (p, x) ∧ c.path = path ++ p ∧ x.SameNode c.node
  /-- the children that it is given are the answers of the calls at the children. -/
  children : ∀ {q c}, (q, c) ∈ trace → ∀ i y,
    (c.node.children.map Prod.snd)[i]? = some y ↔ ∃ d, (q ++ [i], d) ∈ trace ∧ d.answer = .ok y
  ordered : (trace.map Prod.fst).Pairwise Before
  /-- No node is left out before another. -/
  closed : ∀ {q c r n}, (q, c) ∈ trace → at? r = some n → Before r q → ∃ d, (r, d) ∈ trace

/-- There is a call at every node. -/
def Complete (at? : Position → Option (Path × Value)) (trace : Trace) : Prop :=
  ∀ {q n}, at? q = some n → ∃ c, (q, c) ∈ trace

/-- The last call fails; or a call below the root changes the type of its node, and the node around it is refused. -/
inductive Stopped : Trace → ProviderError → Prop
  | failed {trace : Trace} {q : Position} {c : Visit} {e : ProviderError} :
    (∀ d ∈ trace, d.2.Succeeds) → c.answer = .error e → Stopped (trace ++ [(q, c)]) e
  | refused {trace : Trace} {q : Position} {c : Visit} {y : Value} {why : ShapeFault} :
    (∀ d ∈ trace, d.2.Succeeds) → (q, c) ∈ trace → q ≠ [] → c.answer = .ok y → y.ty ≠ c.node.ty →
    Stopped trace (.typeMismatch why)

/-- All calls succeed, and those deeper than this keep the types of their nodes. -/
def KeptBelow (depth : Nat) (trace : Trace) : Prop :=
  ∀ {q c}, (q, c) ∈ trace → ∃ y, c.answer = .ok y ∧ (depth < q.length → y.ty = c.node.ty)

theorem KeptBelow.succeeds {depth : Nat} {trace : Trace} (h : KeptBelow depth trace) : ∀ d ∈ trace, d.2.Succeeds :=
  fun _ hd => (h hd).imp fun _ hy => hy.1

theorem Traced.nil {path : Path} {at? : Position → Option (Path × Value)} : Traced path at? [] where
  node h := by cases h
  children h := by cases h
  ordered := .nil
  closed h := by cases h

theorem Traced.nodup {path : Path} {at? : Position → Option (Path × Value)} {trace : Trace}
    (h : Traced path at? trace) : (trace.map Prod.fst).Nodup := by
  refine h.ordered.imp ?_
  rintro q _ hbefore rfl
  exact not_before_self q hbefore

/-- A call at the root is the last call. -/
theorem Traced.root_last {path : Path} {at? : Position → Option (Path × Value)} {trace : Trace}
    (h : Traced path at? trace) {c : Visit} (hc : ([], c) ∈ trace) : ∃ before, trace = before ++ [([], c)] := by
  obtain ⟨before, rest, rfl⟩ := List.append_of_mem hc
  cases rest with
  | nil        => exact ⟨before, rfl⟩
  | cons d rest =>
    have hordered := h.ordered
    rw [List.map_append, List.pairwise_append] at hordered
    exact (List.rel_of_pairwise_cons hordered.2.1 List.mem_cons_self).elim

/-- As long as every answer is the node that was shown, the nodes that are shown are those of the value. -/
theorem Traced.node_eq {path : Path} {v : Value} {trace : Trace} (h : Traced path (node? · v) trace)
    (hreturned : ∀ d ∈ trace, ∀ y, d.2.answer = .ok y → y = d.2.node) {x : Value} :
    ∀ {q : Position} {c : Visit}, (q, c) ∈ trace → v.nodeAt? q = some x → c.node = x := by
  induction x using children_induction with
  | node x ih =>
    intro q c hc hx
    have hnode : ∀ {r d}, (r, d) ∈ trace → ∃ z, v.nodeAt? r = some z ∧ z.SameNode d.node := fun hd => by
      obtain ⟨p, z, hn, -, hsame⟩ := h.node hd
      exact ⟨z, congrArg (Option.map Prod.snd) hn, hsame⟩
    obtain ⟨x', hx', hsame⟩ := hnode hc
    obtain rfl : x = x' := Option.some.inj (hx.symm.trans hx')
    refine (hsame.eq_of_children (List.ext_getElem? fun i => ?_)).symm
    cases hi : (c.node.children.map Prod.snd)[i]? with
    | none   =>
      rw [List.getElem?_eq_none_iff, List.length_map, ← hsame.length_children] at hi
      rw [List.getElem?_eq_none_iff, List.length_map]
      exact hi
    | some y =>
      obtain ⟨d, hd, hy⟩ := (h.children hc i y).1 hi
      obtain rfl := hreturned _ hd y hy
      obtain ⟨z, hz, -⟩ := hnode hd
      have hchild : (x.children.map Prod.snd)[i]? = some z := (nodeAt?_concat hx i).symm.trans hz
      obtain ⟨e, he, rfl⟩ := List.mem_map.1 (List.mem_of_getElem? hchild)
      rw [hchild, ih e he hd hz]

/-! ## One child after the other -/

/-- The node at a position below a node with these children. -/
def nodeIn? (cs : List (Step × Value)) : Position → Option (Path × Value)
  | []     => none
  | i :: q => cs[i]?.bind fun c => (node? q c.2).map fun n => (c.1 :: n.1, n.2)

/-- The position when a child is put in front. -/
def later : Position → Position
  | []     => []
  | i :: q => (i + 1) :: q

theorem later_ne_nil : ∀ q, q ≠ [] → later q ≠ []
  | [], h     => absurd rfl h
  | _ :: _, _ => List.cons_ne_nil _ _

theorem length_later : ∀ q, (later q).length = q.length
  | []     => rfl
  | _ :: _ => rfl

theorem before_later : ∀ {q r : Position}, Before q r → Before (later q) (later r)
  | [], _, h          => h.elim
  | _ :: _, [], h     => h
  | _ :: _, _ :: _, h => h.imp Nat.succ_lt_succ fun ⟨he, h⟩ => ⟨congrArg Nat.succ he, h⟩

def Trace.under (f : Position → Position) (trace : Trace) : Trace := trace.map fun e => (f e.1, e.2)

theorem mem_under {f : Position → Position} {trace : Trace} {q : Position} {c : Visit} :
    (q, c) ∈ trace.under f ↔ ∃ r, (r, c) ∈ trace ∧ f r = q := by
  simp [Trace.under]

theorem map_fst_under (f : Position → Position) (trace : Trace) :
    (trace.under f).map Prod.fst = (trace.map Prod.fst).map f := by
  simp [Trace.under]

theorem map_snd_under (f : Position → Position) (trace : Trace) :
    (trace.under f).map Prod.snd = trace.map Prod.snd := by
  simp [Trace.under]

/-- The trace of the first child, then that of the others. -/
def Trace.andThen (first rest : Trace) : Trace := first.under (0 :: ·) ++ rest.under later

theorem map_snd_andThen (first rest : Trace) :
    (first.andThen rest).map Prod.snd = first.map Prod.snd ++ rest.map Prod.snd := by
  rw [Trace.andThen, List.map_append, map_snd_under, map_snd_under]

theorem succeeds_under {f : Position → Position} {trace : Trace} (h : ∀ d ∈ trace, d.2.Succeeds) :
    ∀ d ∈ trace.under f, d.2.Succeeds := by
  intro d hd
  obtain ⟨r, hr, -⟩ := mem_under.1 hd
  exact h (r, d.2) hr

section

variable {path : Path} {c : Step × Value} {cs : List (Step × Value)} {first rest : Trace}

/-- A call below a node is below one of its children. -/
theorem Traced.exists_cons (h : Traced path (nodeIn? cs) rest) {q : Position} {d : Visit} (hq : (q, d) ∈ rest) :
    ∃ i r, q = i :: r := by
  obtain ⟨p, x, hn, -⟩ := h.node hq
  cases q with
  | nil      => cases hn
  | cons i r => exact ⟨i, r, rfl⟩

theorem mem_andThen (hrest : Traced path (nodeIn? cs) rest) {i : Nat} {q : Position} {d : Visit} :
    (i :: q, d) ∈ first.andThen rest ↔ i = 0 ∧ (q, d) ∈ first ∨ ∃ j, i = j + 1 ∧ (j :: q, d) ∈ rest := by
  rw [Trace.andThen, List.mem_append, mem_under, mem_under]
  refine or_congr ⟨?_, ?_⟩ ⟨?_, ?_⟩
  · rintro ⟨r, hr, he⟩
    cases he
    exact ⟨rfl, hr⟩
  · rintro ⟨rfl, hq⟩
    exact ⟨q, hq, rfl⟩
  · rintro ⟨r, hr, he⟩
    obtain ⟨j, r', rfl⟩ := hrest.exists_cons hr
    cases he
    exact ⟨j, rfl, hr⟩
  · rintro ⟨j, rfl, hq⟩
    exact ⟨j :: q, hq, rfl⟩

theorem nil_not_mem_andThen (hrest : Traced path (nodeIn? cs) rest) {d : Visit} : ([], d) ∉ first.andThen rest := by
  rw [Trace.andThen, List.mem_append, mem_under, mem_under]
  rintro (⟨r, -, he⟩ | ⟨r, hr, he⟩)
  · cases he
  · exact later_ne_nil r (fun hr' => by obtain ⟨i, s, hs⟩ := hrest.exists_cons hr; rw [hr'] at hs; cases hs) he

/-- The other children come after all that is below the first. -/
theorem Traced.cons (hfirst : Traced (path ++ [c.1]) (node? · c.2) first) (hrest : Traced path (nodeIn? cs) rest)
    (hend : rest ≠ [] → Complete (node? · c.2) first) : Traced path (nodeIn? (c :: cs)) (first.andThen rest) where
  node {q d} h := by
    cases q with
    | nil      => exact absurd h (nil_not_mem_andThen hrest)
    | cons i q =>
      rcases (mem_andThen hrest).1 h with ⟨rfl, hq⟩ | ⟨j, rfl, hq⟩
      · obtain ⟨p, x, hn, hpath, hsame⟩ := hfirst.node hq
        refine ⟨c.1 :: p, x, ?_, ?_, hsame⟩
        · exact congrArg (Option.map fun n => (c.1 :: n.1, n.2)) hn
        · rw [hpath, List.append_assoc]
          rfl
      · exact hrest.node hq
  children {q d} h i y := by
    cases q with
    | nil      => exact absurd h (nil_not_mem_andThen hrest)
    | cons k q =>
      rw [List.cons_append]
      rcases (mem_andThen hrest).1 h with ⟨rfl, hq⟩ | ⟨j, rfl, hq⟩
      · rw [hfirst.children hq]
        simp [mem_andThen hrest]
      · rw [hrest.children hq]
        simp [mem_andThen hrest]
  ordered := by
    rw [Trace.andThen, List.map_append, map_fst_under, map_fst_under, List.pairwise_append]
    refine ⟨hfirst.ordered.map _ fun _ _ h => .inr ⟨rfl, h⟩, hrest.ordered.map _ fun _ _ => before_later, ?_⟩
    intro q hq r hr
    obtain ⟨q', -, rfl⟩ := List.mem_map.1 hq
    obtain ⟨r', hr', rfl⟩ := List.mem_map.1 hr
    obtain ⟨⟨s, d⟩, hd, rfl⟩ := List.mem_map.1 hr'
    obtain ⟨j, t, rfl⟩ := hrest.exists_cons hd
    exact .inl (Nat.succ_pos j)
  closed {q d r n} h hn hbefore := by
    cases r with
    | nil      => cases hn
    | cons k r =>
      cases q with
      | nil      => exact absurd h (nil_not_mem_andThen hrest)
      | cons i q =>
        simp only [mem_andThen hrest]
        cases k with
        | zero   =>
          -- a node below the first child: before a call there, or before one at a later child
          obtain ⟨n', hn', -⟩ := Option.map_eq_some_iff.1 (show (node? r c.2).map _ = some n from hn)
          have hvisited : ∃ d', (r, d') ∈ first := by
            rcases (mem_andThen hrest).1 h with ⟨rfl, hq⟩ | ⟨j, rfl, hq⟩
            · exact hfirst.closed hq hn' (hbefore.resolve_left (Nat.lt_irrefl 0)).2
            · exact hend (List.ne_nil_of_mem hq) hn'
          obtain ⟨d', hd'⟩ := hvisited
          exact ⟨d', .inl ⟨rfl, hd'⟩⟩
        | succ k =>
          rcases (mem_andThen hrest).1 h with ⟨rfl, hq⟩ | ⟨j, rfl, hq⟩
          · rcases hbefore with hlt | ⟨he, -⟩
            · exact absurd hlt (Nat.not_lt_zero _)
            · cases he
          · have hbefore' : Before (k :: r) (j :: q) :=
              hbefore.imp Nat.lt_of_succ_lt_succ fun ⟨he, h⟩ => ⟨Nat.succ.inj he, h⟩
            obtain ⟨d', hd'⟩ := hrest.closed hq (show nodeIn? cs (k :: r) = some n from hn) hbefore'
            exact ⟨d', .inr ⟨k, rfl, hd'⟩⟩

theorem Complete.cons (hrest : Traced path (nodeIn? cs) rest) (h : Complete (node? · c.2) first)
    (h' : Complete (nodeIn? cs) rest) : Complete (nodeIn? (c :: cs)) (first.andThen rest) := by
  intro q n hn
  cases q with
  | nil      => cases hn
  | cons i q =>
    simp only [mem_andThen hrest]
    cases i with
    | zero   =>
      obtain ⟨n', hn', -⟩ := Option.map_eq_some_iff.1 (show (node? q c.2).map _ = some n from hn)
      obtain ⟨d, hd⟩ := h hn'
      exact ⟨d, .inl ⟨rfl, hd⟩⟩
    | succ i =>
      obtain ⟨d, hd⟩ := h' (show nodeIn? cs (i :: q) = some n from hn)
      exact ⟨d, .inr ⟨i, rfl, hd⟩⟩

theorem KeptBelow.andThen (hfirst : KeptBelow 0 first) (hrest : KeptBelow 1 rest) :
    KeptBelow 1 (first.andThen rest) := by
  intro q d hq
  rcases List.mem_append.1 hq with hq | hq
  · obtain ⟨r, hr, rfl⟩ := mem_under.1 hq
    obtain ⟨y, hy, hty⟩ := hfirst hr
    exact ⟨y, hy, fun hlt => hty (Nat.lt_of_succ_lt_succ hlt)⟩
  · obtain ⟨r, hr, rfl⟩ := mem_under.1 hq
    obtain ⟨y, hy, hty⟩ := hrest hr
    exact ⟨y, hy, fun hlt => hty (length_later r ▸ hlt)⟩

end

theorem Stopped.under {f : Position → Position} (hf : ∀ q, q ≠ [] → f q ≠ []) {trace : Trace} {e : ProviderError}
    (h : Stopped trace e) : Stopped (trace.under f) e := by
  cases h with
  | @failed before q c e hbefore hc =>
    have hlast : Trace.under f (before ++ [(q, c)]) = before.under f ++ [(f q, c)] := List.map_append
    rw [hlast]
    exact .failed (succeeds_under hbefore) hc
  | refused hall hq hne hc hty => exact .refused (succeeds_under hall) (mem_under.2 ⟨_, hq, rfl⟩) (hf _ hne) hc hty

theorem Stopped.after {before trace : Trace} {e : ProviderError} (hbefore : ∀ d ∈ before, d.2.Succeeds)
    (h : Stopped trace e) : Stopped (before ++ trace) e := by
  have hall : ∀ {t : Trace}, (∀ d ∈ t, d.2.Succeeds) → ∀ d ∈ before ++ t, d.2.Succeeds :=
    fun ht d hd => (List.mem_append.1 hd).elim (hbefore d) (ht d)
  cases h with
  | failed ht hc =>
    rw [← List.append_assoc]
    exact .failed (hall ht) hc
  | refused ht hq hne hc hty => exact .refused (hall ht) (List.mem_append_right _ hq) hne hc hty

/-! ## The node after its children -/

/-- The answers of the calls at the children. -/
def Answers (trace : Trace) (ys : List Value) : Prop :=
  ∀ i y, ys[i]? = some y ↔ ∃ d, ([i], d) ∈ trace ∧ d.answer = .ok y

section

variable {path : Path} {v : Value} {trace : Trace}

theorem node?_of_nodeIn? {q : Position} {n : Path × Value} (h : nodeIn? v.children q = some n) :
    node? q v = some n := by
  cases q with
  | nil      => cases h
  | cons i q => exact h

/-- Before the node itself there is no call at it. -/
theorem Traced.inside (h : Traced path (nodeIn? v.children) trace) : Traced path (node? · v) trace where
  node hq := by
    obtain ⟨p, x, hn, hrest⟩ := h.node hq
    exact ⟨p, x, node?_of_nodeIn? hn, hrest⟩
  children := h.children
  ordered := h.ordered
  closed {q d r n} hq hn hbefore := by
    cases r with
    | nil      =>
      obtain ⟨i, s, rfl⟩ := h.exists_cons hq
      exact hbefore.elim
    | cons i r => exact h.closed hq hn hbefore

theorem Traced.root (h : Traced path (nodeIn? v.children) trace) (hend : Complete (nodeIn? v.children) trace)
    {x : Value} (hx : Answers trace (x.children.map Prod.snd)) (hsame : v.SameNode x) (r : Except ProviderError Value) :
    Traced path (node? · v) (trace ++ [([], ⟨path, x, r⟩)]) where
  node {q d} hq := by
    rcases List.mem_append.1 hq with hq | hq
    · exact h.inside.node hq
    · cases List.mem_singleton.1 hq
      exact ⟨[], v, rfl, (List.append_nil path).symm, hsame⟩
  children {q d} hq i y := by
    have hbelow : ∀ d', (q ++ [i], d') ∈ trace ++ [([], ⟨path, x, r⟩)] ↔ (q ++ [i], d') ∈ trace := fun d' => by simp
    simp only [hbelow]
    rcases List.mem_append.1 hq with hq | hq
    · exact h.children hq i y
    · cases List.mem_singleton.1 hq
      exact hx i y
  ordered := by
    rw [List.map_append, List.pairwise_append]
    refine ⟨h.ordered, List.pairwise_singleton _ _, fun q hq r hr => ?_⟩
    obtain ⟨⟨s, d⟩, hd, rfl⟩ := List.mem_map.1 hq
    obtain ⟨i, t, rfl⟩ := h.exists_cons hd
    rw [List.mem_singleton.1 hr]
    exact trivial
  closed {q d s n} hq hn hbefore := by
    cases s with
    | nil      => cases q <;> exact hbefore.elim
    | cons i s =>
      obtain ⟨d', hd'⟩ := hend (show nodeIn? v.children (i :: s) = some n from hn)
      exact ⟨d', List.mem_append_left _ hd'⟩

theorem Complete.root (h : Complete (nodeIn? v.children) trace) (c : Visit) :
    Complete (node? · v) (trace ++ [([], c)]) := by
  intro q n hn
  cases q with
  | nil      => exact ⟨c, List.mem_append_right _ List.mem_cons_self⟩
  | cons i q =>
    obtain ⟨d, hd⟩ := h (show nodeIn? v.children (i :: q) = some n from hn)
    exact ⟨d, List.mem_append_left _ hd⟩

theorem KeptBelow.root (h : Traced path (nodeIn? v.children) trace) (hkept : KeptBelow 1 trace)
    (hchildren : ∀ i d y, ([i], d) ∈ trace → d.answer = .ok y → y.ty = d.node.ty) {c : Visit} (hc : c.Succeeds) :
    KeptBelow 0 (trace ++ [([], c)]) := by
  intro q d hq
  rcases List.mem_append.1 hq with hq | hq
  · obtain ⟨i, r, rfl⟩ := h.exists_cons hq
    obtain ⟨y, hy, hty⟩ := hkept hq
    refine ⟨y, hy, fun _ => ?_⟩
    cases r with
    | nil      => exact hchildren i d y hq hy
    | cons j r => exact hty (by simp)
  · cases List.mem_singleton.1 hq
    exact hc.imp fun y hy => ⟨hy, fun hlt => absurd hlt (Nat.lt_irrefl 0)⟩

/-- The last call is the only one at the node itself. -/
theorem Traced.mem_root_iff (h : Traced path (nodeIn? v.children) trace) {c d : Visit} :
    ([], d) ∈ trace ++ [([], c)] ↔ d = c := by
  rw [List.mem_append, List.mem_singleton, Prod.mk.injEq]
  constructor
  · rintro (hd | ⟨-, rfl⟩)
    · obtain ⟨i, r, he⟩ := h.exists_cons hd
      cases he
    · rfl
  · rintro rfl
    exact .inr ⟨rfl, rfl⟩

/-- The call at a child is given a node of the type of the child. -/
theorem Traced.child_ty {cs : List (Step × Value)} (h : Traced path (nodeIn? cs) trace) {i : Nat} {d : Visit}
    (hd : ([i], d) ∈ trace) : ∃ c, cs[i]? = some c ∧ c.2.ty = d.node.ty := by
  obtain ⟨p, x, hn, -, hsame⟩ := h.node hd
  obtain ⟨c, hc, hx⟩ := Option.bind_eq_some_iff.1 hn
  cases hx
  exact ⟨c, hc, hsame.ty_eq⟩

/-- The answers have the types of the children exactly if each call at a child keeps its type. -/
theorem Traced.types_eq_iff {cs : List (Step × Value)} (h : Traced path (nodeIn? cs) trace) {ys : List Value}
    (hys : Answers trace ys) (hlen : cs.length = ys.length) :
    (cs.map Prod.snd).map Value.ty = ys.map Value.ty ↔
      ∀ i d y, ([i], d) ∈ trace → d.answer = .ok y → y.ty = d.node.ty := by
  constructor
  · intro heq i d y hd hy
    obtain ⟨c, hc, hty⟩ := h.child_ty hd
    have hi := congrArg (·[i]?) heq
    have hyi : ys[i]? = some y := (hys i y).2 ⟨d, hd, hy⟩
    simp only [List.getElem?_map, hc, hyi, Option.map_some, Option.some_inj] at hi
    exact hi.symm.trans hty
  · intro hkept
    refine List.ext_getElem? fun i => ?_
    cases hyi : ys[i]? with
    | none   =>
      have hci : cs[i]? = none := List.getElem?_eq_none_iff.2 (hlen ▸ List.getElem?_eq_none_iff.1 hyi)
      simp [hyi, hci]
    | some y =>
      obtain ⟨d, hd, hy⟩ := (hys i y).1 hyi
      obtain ⟨c, hc, hty⟩ := h.child_ty hd
      simp only [List.getElem?_map, hc, hyi, Option.map_some, Option.some_inj]
      exact hty.trans (hkept i d y hd hy).symm

theorem Traced.exists_changed {cs : List (Step × Value)} (h : Traced path (nodeIn? cs) trace) {ys : List Value}
    (hys : Answers trace ys) (hlen : cs.length = ys.length)
    (hne : (cs.map Prod.snd).map Value.ty ≠ ys.map Value.ty) :
    ∃ i d y, ([i], d) ∈ trace ∧ d.answer = .ok y ∧ y.ty ≠ d.node.ty := by
  have hchanged := mt (h.types_eq_iff hys hlen).2 hne
  simpa only [Classical.not_forall, exists_prop] using hchanged

end

end ProviderProtocol.Value
