import ProviderProtocol.Proofs.Value.Trace
/-!
# What a traversal calls and what comes of it

A callback may carry a state from call to call and may fail.  Whatever it does, the traversal of a well-formed value
makes the calls of a trace and ends as the trace says (`traceable`): with the answer of the call at the root, after a
call at every node; or with the error of the last call; or because a call below the root has changed the type of its
node.
-/
namespace ProviderProtocol.Value

/-! ## Recorded runs -/

/-- A callback with a state of its own. -/
abbrev Callback (σ : Type) := Path → Value → ExceptT ProviderError (StateM σ) Value

/-- The callback over a state with a record, to which it adds each of its calls. -/
def Callback.recorded {σ : Type} (visit : Callback σ) : Callback (σ × List Visit) := fun p x s =>
  let (answer, after) := (visit p x).run.run s.1
  (answer, (after, s.2 ++ [⟨p, x, answer⟩]))

/-- From `s` the first program ends with `r` and leaves `s'`.  The second, which records, does so too and adds the calls
to its record; the callback gives their answers. -/
structure Makes {σ α : Type} (visit : Callback σ) (x : ExceptT ProviderError (StateM σ) α)
    (x' : ExceptT ProviderError (StateM (σ × List Visit)) α) (s : σ) (calls : List Visit) (r : Except ProviderError α)
    (s' : σ) : Prop where
  plain : x.run.run s = (r, s')
  recorded : ∀ record, x'.run.run (s, record) = (r, (s', record ++ calls))
  answers : ∀ c ∈ calls, ∃ t, ((visit c.path c.node).run.run t).1 = c.answer

section

variable {σ α β : Type} {s s' s'' : σ}

theorem run_bind_of_ok {x : ExceptT ProviderError (StateM σ) α} {f : α → ExceptT ProviderError (StateM σ) β} {a : α}
    (h : x.run.run s = (.ok a, s')) : (x >>= f).run.run s = (f a).run.run s' := by
  rw [ExceptT.run_bind, StateT.run_bind, h]
  rfl

theorem run_bind_of_error {x : ExceptT ProviderError (StateM σ) α} {f : α → ExceptT ProviderError (StateM σ) β}
    {e : ProviderError} (h : x.run.run s = (.error e, s')) : (x >>= f).run.run s = (.error e, s') := by
  rw [ExceptT.run_bind, StateT.run_bind, h]
  rfl

variable {visit : Callback σ} {x : ExceptT ProviderError (StateM σ) α}
  {x' : ExceptT ProviderError (StateM (σ × List Visit)) α} {f : α → ExceptT ProviderError (StateM σ) β}
  {f' : α → ExceptT ProviderError (StateM (σ × List Visit)) β} {calls calls' : List Visit}

theorem makes_pure (a : α) (s : σ) : Makes visit (pure a) (pure a) s [] (.ok a) s where
  plain := rfl
  recorded record := by
    rw [List.append_nil]
    rfl
  answers := List.forall_mem_nil _

theorem makes_throw (e : ProviderError) (s : σ) : Makes (α := α) visit (throw e) (throw e) s [] (.error e) s where
  plain := rfl
  recorded record := by
    rw [List.append_nil]
    rfl
  answers := List.forall_mem_nil _

theorem Makes.bind {a : α} {r : Except ProviderError β} (h : Makes visit x x' s calls (.ok a) s')
    (hf : Makes visit (f a) (f' a) s' calls' r s'') : Makes visit (x >>= f) (x' >>= f') s (calls ++ calls') r s'' where
  plain := (run_bind_of_ok h.plain).trans hf.plain
  recorded record := by
    rw [run_bind_of_ok (h.recorded record), hf.recorded, List.append_assoc]
  answers c hc := (List.mem_append.1 hc).elim (h.answers c) (hf.answers c)

theorem Makes.bind_error {e : ProviderError} (h : Makes visit x x' s calls (.error e) s') :
    Makes visit (x >>= f) (x' >>= f') s calls (.error e) s' where
  plain := run_bind_of_error h.plain
  recorded record := run_bind_of_error (h.recorded record)
  answers := h.answers

theorem Makes.map {r : Except ProviderError α} (h : Makes visit x x' s calls r s') (g : α → β) :
    Makes visit (x >>= fun a => pure (g a)) (x' >>= fun a => pure (g a)) s calls (r.map g) s' := by
  cases r with
  | error e => exact h.bind_error
  | ok a    =>
    rw [← List.append_nil calls]
    exact h.bind (makes_pure (g a) s')

theorem makes_visit {p : Path} {v : Value} {r : Except ProviderError Value} (h : (visit p v).run.run s = (r, s')) :
    Makes visit (visit p v) (visit.recorded p v) s [⟨p, v, r⟩] r s' where
  plain := h
  recorded record := by
    show (((visit p v).run.run s).1, (((visit p v).run.run s).2, record ++ [⟨p, v, ((visit p v).run.run s).1⟩])) = _
    rw [h]
  answers c hc := by
    cases List.mem_singleton.1 hc
    exact ⟨s, congrArg Prod.fst h⟩

/-- When the children are done, the node is put together from them, and nothing is called for that. -/
theorem Makes.rebuild {path : Path} {v : Value} {ys : List Value}
    (h : Makes visit (transformChildren visit path v.children) (transformChildren visit.recorded path v.children) s
      calls (.ok ys) s') :
    Makes visit (transformChildren visit path v.children >>= fun ys => orMismatch (v.withChildren ys))
      (transformChildren visit.recorded path v.children >>= fun ys => orMismatch (v.withChildren ys)) s calls
      ((v.withChildren ys).mapError ProviderError.typeMismatch) s' := by
  have horMismatch : Makes visit (orMismatch (v.withChildren ys)) (orMismatch (v.withChildren ys)) s' []
      ((v.withChildren ys).mapError ProviderError.typeMismatch) s' := by
    cases v.withChildren ys with
    | ok x      => exact makes_pure x s'
    | error why => exact makes_throw _ s'
  rw [← List.append_nil calls]
  exact h.bind horMismatch

end

/-! ## Every traversal can be traced -/

/-- How a traversal ends: with the answer of the last call, after all nodes, or before that. -/
def Ends (v : Value) (trace : Trace) : Except ProviderError Value → Prop
  | .ok w    => Complete (node? · v) trace ∧ (∀ y, w = y ↔ ∃ d, ([], d) ∈ trace ∧ d.answer = .ok y) ∧ KeptBelow 0 trace
  | .error e => Stopped trace e

def EndsIn (cs : List (Step × Value)) (trace : Trace) : Except ProviderError (List Value) → Prop
  | .ok ys   => Complete (nodeIn? cs) trace ∧ Answers trace ys ∧ KeptBelow 1 trace ∧ cs.length = ys.length
  | .error e => Stopped trace e

section

variable {σ : Type} (visit : Callback σ)

/-- From every state, at every path, the traversal of the value can be traced. -/
def Traceable (v : Value) : Prop :=
  ∀ path s, ∃ trace r s',
    Makes visit (transformAt visit path v) (transformAt visit.recorded path v) s (trace.map Prod.snd) r s' ∧
      Traced path (node? · v) trace ∧ Ends v trace r

theorem traced_children (path : Path) : ∀ {cs : List (Step × Value)}, (∀ c ∈ cs, Traceable visit c.2) → ∀ s,
    ∃ trace r s',
      Makes visit (transformChildren visit path cs) (transformChildren visit.recorded path cs) s (trace.map Prod.snd)
        r s' ∧ Traced path (nodeIn? cs) trace ∧ EndsIn cs trace r
  | [], _, s       => by
    refine ⟨[], .ok [], s, makes_pure [] s, .nil, ?_, ?_, ?_, rfl⟩
    · intro q n h
      cases q <;> cases h
    · intro i y
      simp
    · intro q c h
      cases h
  | c :: cs, h, s => by
    obtain ⟨hc, hcs⟩ := List.forall_mem_cons.1 h
    obtain ⟨first, r, s', hmakes, htraced, hends⟩ := hc (path ++ [c.1]) s
    unfold transformChildren
    simp only [List.mapM_cons]
    cases r with
    | error e =>
      refine ⟨first.andThen [], .error e, s', ?_, htraced.cons .nil fun hne => absurd rfl hne, ?_⟩
      · rw [map_snd_andThen, List.map_nil, List.append_nil]
        exact hmakes.bind_error
      · rw [Trace.andThen, show Trace.under later [] = [] from rfl, List.append_nil]
        exact hends.under fun _ _ => List.cons_ne_nil _ _
    | ok y =>
      -- the next child starts from the state that the first has left
      obtain ⟨rest, r', s'', hmakes', htraced', hends'⟩ := traced_children path hcs s'
      obtain ⟨hcomplete, hroot, hkept⟩ := hends
      refine ⟨first.andThen rest, r'.map (y :: ·), s'', ?_, htraced.cons htraced' fun _ => hcomplete, ?_⟩
      · rw [map_snd_andThen]
        exact hmakes.bind (hmakes'.map (y :: ·))
      · cases r' with
        | error e => exact (hends'.under later_ne_nil).after (succeeds_under hkept.succeeds)
        | ok ys   =>
          obtain ⟨hcomplete', hanswers, hkept', hlen⟩ := hends'
          refine ⟨hcomplete.cons htraced' hcomplete', ?_, hkept.andThen hkept', congrArg Nat.succ hlen⟩
          intro i z
          simp only [mem_andThen htraced']
          cases i with
          | zero   =>
            rw [List.getElem?_cons_zero, Option.some_inj, hroot]
            simp
          | succ i =>
            rw [List.getElem?_cons_succ, hanswers]
            simp

/-- **Every traversal of a well-formed value can be traced.** -/
theorem WellFormed.traceable {v : Value} (hv : v.WellFormed) : Traceable visit v := by
  induction v using children_induction with
  | node v ih =>
    intro path s
    have hchildren : ∀ c ∈ v.children, Traceable visit c.2 := fun c hc => by
      obtain ⟨i, hi⟩ := List.getElem?_of_mem hc
      exact ih c hc (hv.child hi).2
    obtain ⟨trace, r, s', hmakes, htraced, hends⟩ := traced_children visit path hchildren s
    simp only [transformAt_eq]
    cases r with
    | error e => exact ⟨trace, .error e, s', hmakes.bind_error.bind_error, htraced.inside, hends⟩
    | ok ys =>
      obtain ⟨hcomplete, hanswers, hkept, hlen⟩ := hends
      -- the node is refused exactly if a call at one of its children has changed a type
      have hfit := hv.withChildren_isOk_iff hlen
      have hrebuilt := hmakes.rebuild
      cases hx : v.withChildren ys with
      | error why =>
        rw [hx] at hfit hrebuilt
        obtain ⟨i, d, y, hd, hy, hty⟩ := htraced.exists_changed hanswers hlen fun he => by
          obtain ⟨x, hok⟩ := hfit.2 he
          cases hok
        exact ⟨trace, .error (.typeMismatch why), s', hrebuilt.bind_error, htraced.inside,
          .refused hkept.succeeds hd (List.cons_ne_nil _ _) hy hty⟩
      | ok x =>
        rw [hx] at hfit hrebuilt
        obtain ⟨hsame, hxs⟩ := withChildren_eq_ok hlen hx
        have hanswers' : Answers trace (x.children.map Prod.snd) := hxs ▸ hanswers
        have hunchanged := (htraced.types_eq_iff hanswers hlen).1 (hfit.1 ⟨x, rfl⟩)
        obtain ⟨r, s'', hvisit⟩ : ∃ r s'', (visit path x).run.run s' = (r, s'') := ⟨_, _, rfl⟩
        refine ⟨trace ++ [([], ⟨path, x, r⟩)], r, s'', ?_, htraced.root hcomplete hanswers' hsame r, ?_⟩
        · rw [List.map_append]
          exact hrebuilt.bind (makes_visit hvisit)
        · cases r with
          | error e => exact .failed hkept.succeeds rfl
          | ok w    =>
            refine ⟨hcomplete.root _, fun y => ?_, hkept.root htraced hunchanged ⟨w, rfl⟩⟩
            simp only [htraced.mem_root_iff, exists_eq_left, Except.ok.injEq]

/-! ## What a traversal does -/

/-- An answer is of the type of the node that is shown. -/
def Callback.KeepsTypes : Prop := ∀ p x s y, ((visit p x).run.run s).1 = .ok y → y.ty = x.ty

/-- The answer is the node that is shown. -/
def Callback.ReturnsNodes : Prop := ∀ p x s, ((visit p x).run.run s).1 = .ok x

/-- What a traversal of `v` that makes the calls of the trace, and ends with `r`, does. -/
structure Traversal (v : Value) (trace : Trace) (r : Except ProviderError Value) : Prop where
  /-- The calls are at nodes, with what has become of the children, and none is left out before another. -/
  traced : Traced [] (node? · v) trace
  once : (trace.map Prod.fst).Nodup
  /-- Children come before their parents, and a child with all below it before the next. -/
  ordered : (trace.map Prod.fst).Pairwise fun q r =>
    (∃ s, s ≠ [] ∧ q = r ++ s) ∨ ∃ p i j s t, i < j ∧ q = p ++ i :: s ∧ r = p ++ j :: t
  /-- The order of the entries of maps and objects is that of their keys. -/
  ascending : ∀ q p t es, node? q v = some (p, .known t (.map es)) → Table.Ascending es
  last : ∀ c, ([], c) ∈ trace → c.path = [] ∧ ∃ before, trace = before ++ [([], c)]
  /-- A traversal that succeeds has called at every node, and its result is the answer at the root. -/
  complete : ∀ w, r = .ok w → Complete (node? · v) trace ∧ ∃ c, ([], c) ∈ trace ∧ c.answer = .ok w
  /-- If the callback keeps types, nothing fails but the callback, -/
  ok_iff : visit.KeepsTypes → ((∃ w, r = .ok w) ↔ ∀ d ∈ trace, d.2.Succeeds)
  /-- and no call is made after one that fails. -/
  error : visit.KeepsTypes → ∀ e, r = .error e →
    ∃ before q c, trace = before ++ [(q, c)] ∧ (∀ d ∈ before, d.2.Succeeds) ∧ c.answer = .error e
  identity : visit.ReturnsNodes → r = .ok v
  /-- Below the root no change of a type is accepted. -/
  changed : ∀ q c y, (q, c) ∈ trace → q ≠ [] → c.answer = .ok y → y.ty ≠ c.node.ty → ∀ w, r ≠ .ok w

variable {visit} {v : Value} {s s' : σ} {trace : Trace} {r : Except ProviderError Value}

theorem Callback.ReturnsNodes.keepsTypes (h : visit.ReturnsNodes) : visit.KeepsTypes := fun p x s y hy => by
  cases (h p x s).symm.trans hy
  rfl

theorem Makes.kept {α : Type} {x : ExceptT ProviderError (StateM σ) α}
    {x' : ExceptT ProviderError (StateM (σ × List Visit)) α} {r : Except ProviderError α}
    (h : Makes visit x x' s (trace.map Prod.snd) r s') (hvisit : visit.KeepsTypes) :
    ∀ d ∈ trace, ∀ y, d.2.answer = .ok y → y.ty = d.2.node.ty := fun d hd y hy => by
  obtain ⟨t, ht⟩ := h.answers d.2 (List.mem_map_of_mem hd)
  exact hvisit _ _ t y (ht.trans hy)

theorem Makes.returned {α : Type} {x : ExceptT ProviderError (StateM σ) α}
    {x' : ExceptT ProviderError (StateM (σ × List Visit)) α} {r : Except ProviderError α}
    (h : Makes visit x x' s (trace.map Prod.snd) r s') (hvisit : visit.ReturnsNodes) :
    ∀ d ∈ trace, d.2.answer = .ok d.2.node := fun d hd => by
  obtain ⟨t, ht⟩ := h.answers d.2 (List.mem_map_of_mem hd)
  exact ht.symm.trans (hvisit _ _ t)

/-- If the callback keeps types, a traversal is stopped by nothing but a call that fails. -/
theorem Stopped.failed_of_kept {e : ProviderError} (h : Stopped trace e)
    (hkept : ∀ d ∈ trace, ∀ y, d.2.answer = .ok y → y.ty = d.2.node.ty) :
    ∃ before q c, trace = before ++ [(q, c)] ∧ (∀ d ∈ before, d.2.Succeeds) ∧ c.answer = .error e := by
  cases h with
  | failed hbefore hc     => exact ⟨_, _, _, rfl, hbefore, hc⟩
  | refused _ hq _ hy hty => exact absurd (hkept _ hq _ hy) hty

theorem traversal (hv : v.WellFormed)
    (hmakes : Makes visit (transformAt visit [] v) (transformAt visit.recorded [] v) s (trace.map Prod.snd) r s')
    (htraced : Traced [] (node? · v) trace) (hends : Ends v trace r) : Traversal visit v trace r where
  traced := htraced
  once := htraced.nodup
  ordered := htraced.ordered.imp before_iff.1
  ascending q p t es hn := (hv.along?_node? hn).2.ascending
  last c hc := by
    obtain ⟨p, x, hn, hpath, -⟩ := htraced.node hc
    cases hn
    exact ⟨hpath, htraced.root_last hc⟩
  complete := by
    rintro w rfl
    exact ⟨hends.1, (hends.2.1 w).1 rfl⟩
  ok_iff hvisit := by
    cases r with
    | ok w    => exact iff_of_true ⟨w, rfl⟩ (KeptBelow.succeeds hends.2.2)
    | error e =>
      refine iff_of_false (fun ⟨w, he⟩ => by cases he) fun hall => ?_
      obtain ⟨before, q, c, rfl, -, hc⟩ := Stopped.failed_of_kept hends (hmakes.kept hvisit)
      obtain ⟨y, hy⟩ := hall (q, c) (List.mem_append_right _ List.mem_cons_self)
      cases hy.symm.trans hc
  error hvisit e he := by
    subst he
    exact Stopped.failed_of_kept hends (hmakes.kept hvisit)
  identity hvisit := by
    have hanswer := hmakes.returned hvisit
    cases r with
    | ok w    =>
      obtain ⟨d, hd, hw⟩ := (hends.2.1 w).1 rfl
      cases (hanswer _ hd).symm.trans hw
      exact congrArg Except.ok
        (htraced.node_eq (fun d hd y hy => Except.ok.inj (hy.symm.trans (hanswer d hd))) hd rfl)
    | error e =>
      obtain ⟨before, q, c, rfl, -, hc⟩ := Stopped.failed_of_kept hends (hmakes.kept hvisit.keepsTypes)
      cases (hanswer (q, c) (List.mem_append_right _ List.mem_cons_self)).symm.trans hc
  changed q c y hq hne hy hty := by
    rintro w rfl
    obtain ⟨z, hz, hkept⟩ := hends.2.2 hq
    cases hz.symm.trans hy
    exact hty (hkept (List.length_pos_iff.2 hne))

/-- **A traversal visits every node once, in order, and rebuilds the value from the answers.**  The record of the calls
changes neither the result nor the state of the callback. -/
theorem transform_visits_and_rebuilds (hv : v.WellFormed) (visit : Callback σ) (s : σ) :
    ∃ trace r s', (v.transform visit).run.run s = (r, s') ∧
      (v.transform visit.recorded).run.run (s, []) = (r, (s', trace.map Prod.snd)) ∧ Traversal visit v trace r := by
  obtain ⟨trace, r, s', hmakes, htraced, hends⟩ := hv.traceable visit [] s
  exact ⟨trace, r, s', hmakes.plain, hmakes.recorded [], traversal hv hmakes htraced hends⟩

end

/-! ### Settling a crate

A crate has labels, one of them unknown, and a set of rows of slots.  `settle` puts null for what is unknown and counts
the nodes. -/

def crate : Value :=
  .known (.object [("labels", .map .string), ("rows", .set (.list .bool))]) (.map [
    ("labels", .known (.map .string) (.map [("from", .ofString "a"), ("to", .unknown .string)])),
    ("rows", .known (.set (.list .bool)) (.list [
      .known (.list .bool) (.list [.ofBool true, .null .bool]),
      .known (.list .bool) (.list [])]))])

def settle : Callback Nat := fun _ x n =>
  match x with
  | .unknown t => (.ok (.null t), n + 1)
  | x          => (.ok x, n + 1)

theorem settle_keepsTypes : settle.KeepsTypes := by
  intro p x s y h
  cases x <;> cases h <;> rfl

theorem transform_visits_and_rebuilds_crate :
    crate.WellFormed ∧ settle.KeepsTypes ∧
      ∃ trace r s', (crate.transform settle).run.run 0 = (r, s') ∧
        (crate.transform settle.recorded).run.run (0, []) = (r, (s', trace.map Prod.snd)) ∧
        Traversal settle crate trace r :=
  ⟨by decide, settle_keepsTypes, transform_visits_and_rebuilds (by decide) settle 0⟩

/-- Entries by key, items by index, and the items of the set by what they are. -/
example : ((crate.transform settle.recorded).run.run (0, [])).2.2.map (·.path.text) =
    ["labels[\"from\"]", "labels[\"to\"]", "labels", "rows[[true, null]][0]", "rows[[true, null]][1]",
      "rows[[true, null]]", "rows[[]]", "rows", ""] := by
  decide +kernel

end ProviderProtocol.Value
