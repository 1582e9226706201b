import ProviderProtocol.Proofs.Value.Equivalence
import ProviderProtocol.Proofs.Value.OwnPath
import ProviderProtocol.Proofs.Value.Traversal
/-!
# Walking to the nodes that a traversal visits

The items on the paths of a value that is known throughout are themselves known throughout, so every walk along such a
path gets to its end.  The node there is equal to the one that the traversal visits and need not be the same: two items
of a set can be equal and differ, and then the first of them is found for both.
-/
namespace ProviderProtocol.Value

/-- The calls of the traversal of a value, in their order. -/
def visits {σ : Type} (visit : Callback σ) (v : Value) (s : σ) : List Visit :=
  ((v.transform visit.recorded).run.run (s, [])).2.2

theorem fullyKnown_of_mem_children {v : Value} (h : v.fullyKnown = true) {c : Step × Value} (hc : c ∈ v.children) :
    c.2.fullyKnown = true :=
  fullyKnown_iff.2 ((throughout_iff.1 (fullyKnown_iff.1 h)).2 c.2 (List.mem_map_of_mem hc))

/-- A step into a set is by the item that it leads to. -/
theorem eq_of_mem_children_element {v k x : Value} (h : (.element k, x) ∈ v.children) : k = x := by
  obtain ⟨i, hi⟩ := List.getElem?_of_mem h
  cases v with
  | null t    => cases hi
  | unknown t => cases hi
  | known t c =>
    cases c with
    | list xs  => exact (itemStep_eq_element (mem_children_list hi).2).2
    | map es   =>
      obtain ⟨key, -, hstep⟩ := mem_children_map hi
      exact absurd hstep entryStep_ne_element
    | string s => cases hi
    | number n => cases hi
    | bool b   => cases hi

theorem keysKnown_of_fullyKnown : ∀ {q : Position} {v : Value} {p : Path} {x : Value}, v.fullyKnown = true →
    node? q v = some (p, x) → p.KeysKnown ∧ x.fullyKnown = true
  | [], v, p, x, h, hn     => by
    cases hn
    exact ⟨fun k hk => (List.not_mem_nil hk).elim, h⟩
  | i :: q, v, p, x, h, hn => by
    obtain ⟨step, y, r, hc, hr, rfl⟩ := node?_cons hn
    have hmem : (step, y) ∈ v.children := List.mem_of_getElem? hc
    have hy : y.fullyKnown = true := fullyKnown_of_mem_children h hmem
    obtain ⟨hrest, hx⟩ := keysKnown_of_fullyKnown hy hr
    refine ⟨Path.keysKnown_cons.2 ⟨?_, hrest⟩, hx⟩
    rintro k rfl
    exact eq_of_mem_children_element hmem ▸ hy

/-- The walk along the path of a node gets to a node that is equal to it. -/
theorem walk_node {v : Value} (hv : v.WellFormed) (hknown : v.fullyKnown = true) {q : Position} {p : Path} {x : Value}
    (hn : node? q v = some (p, x)) : ∃ y, v.walk p = .ok (some y) ∧ y.equal x = true := by
  obtain ⟨hkeys, hx⟩ := keysKnown_of_fullyKnown hknown hn
  obtain ⟨y, hwalk, halike⟩ := walkFrom_own p (.inl rfl) hv hv hn hkeys
  refine ⟨y, ?_, halike.equal (hv.along?_node? hn).2 hx⟩
  rw [walk, walkDeepest, hwalk]
  rfl

section

variable {σ : Type} {v : Value} (hv : v.WellFormed) (visit : Callback σ) (s : σ)

include hv

theorem visits_traced : ∃ trace r s',
    Makes visit (transformAt visit [] v) (transformAt visit.recorded [] v) s (trace.map Prod.snd) r s' ∧
      Traced [] (node? · v) trace ∧ Ends v trace r ∧ visits visit v s = trace.map Prod.snd := by
  obtain ⟨trace, r, s', hmakes, htraced, hends⟩ := hv.traceable visit [] s
  exact ⟨trace, r, s', hmakes, htraced, hends, congrArg (fun run => run.2.2) (hmakes.recorded [])⟩

/-- A callback that returns what it is shown is shown every node under its path. -/
theorem mem_visits (hvisit : visit.ReturnsNodes) {q : Position} {p : Path} {x : Value} (hn : node? q v = some (p, x)) :
    ⟨p, x, .ok x⟩ ∈ visits visit v s := by
  obtain ⟨trace, r, s', hmakes, htraced, hends, hvisits⟩ := visits_traced hv visit s
  have htraversal := traversal hv hmakes htraced hends
  obtain ⟨c, hc⟩ := (htraversal.complete v (htraversal.identity hvisit)).1 hn
  have hanswer := hmakes.returned hvisit
  obtain ⟨p', x', hn', hpath, -⟩ := htraced.node hc
  cases hn.symm.trans hn'
  have hnode : c.node = x :=
    htraced.node_eq (fun d hd y hy => Except.ok.inj (hy.symm.trans (hanswer d hd))) hc
      (congrArg (Option.map Prod.snd) hn)
  have hvisited : c = ⟨p, x, .ok x⟩ := by
    obtain ⟨path, node, answer⟩ := c
    obtain rfl : path = p := hpath
    obtain rfl : node = x := hnode
    exact congrArg (Visit.mk path node) (hanswer _ hc)
  rw [hvisits, ← hvisited]
  exact List.mem_map_of_mem hc

end

/-- **The path of every visit can be walked**, whatever the callback does to the nodes: it leads to a node that is
equal to the one the visit is at.  As long as the callback changes no node, that one is what it is shown; and if it
never does nor fails, every node is visited. -/
theorem visited_paths_are_walked {σ : Type} {v : Value} (hv : v.WellFormed) (hknown : v.fullyKnown = true)
    (visit : Callback σ) (s : σ) :
    (∀ c ∈ visits visit v s, ∃ q x y, node? q v = some (c.path, x) ∧ v.walk c.path = .ok (some y) ∧ y.equal x = true ∧
      ((∀ d ∈ visits visit v s, ∀ z, d.answer = .ok z → z = d.node) → c.node = x)) ∧
    (visit.ReturnsNodes → ∀ q p x, node? q v = some (p, x) → ⟨p, x, .ok x⟩ ∈ visits visit v s) := by
  refine ⟨fun c hc => ?_, fun hvisit q p x => mem_visits hv visit s hvisit⟩
  obtain ⟨trace, r, s', -, htraced, -, hvisits⟩ := visits_traced hv visit s
  rw [hvisits] at hc ⊢
  obtain ⟨⟨q, d⟩, hq, rfl⟩ := List.mem_map.1 hc
  obtain ⟨p, x, hn, hpath, -⟩ := htraced.node hq
  obtain rfl : _ = p := hpath
  obtain ⟨y, hwalk, hequal⟩ := walk_node hv hknown hn
  refine ⟨q, x, y, hn, hwalk, hequal, fun hunchanged => ?_⟩
  exact htraced.node_eq (fun d hd => hunchanged d.2 (List.mem_map_of_mem hd)) hq
    (congrArg (Option.map Prod.snd) hn)

/-! ### Two zeros

The items of this set differ in the sign of a zero and are equal. -/

def zeroSets : Value := .known (.set (.set .number)) (.list [zeroAndOne true, zeroAndOne false])

def tally : Callback Nat := fun _ x n => (.ok x, n + 1)

theorem visited_paths_are_walked_zeros :
    zeroSets.WellFormed ∧ zeroSets.fullyKnown = true ∧
      (∀ c ∈ visits tally zeroSets 0, ∃ q x y, node? q zeroSets = some (c.path, x) ∧
        zeroSets.walk c.path = .ok (some y) ∧ y.equal x = true ∧
        ((∀ d ∈ visits tally zeroSets 0, ∀ z, d.answer = .ok z → z = d.node) → c.node = x)) ∧
      ⟨[.element (zeroAndOne false), .element (.ofNumber (.float (.zero false)))], .ofNumber (.float (.zero false)),
        .ok (.ofNumber (.float (.zero false)))⟩ ∈ visits tally zeroSets 0 := by
  have hv : zeroSets.WellFormed := by decide
  have hknown : zeroSets.fullyKnown = true := by decide
  obtain ⟨hwalked, hvisited⟩ := visited_paths_are_walked hv hknown tally 0
  exact ⟨hv, hknown, hwalked, hvisited (fun _ _ _ => rfl) [1, 0] _ _ rfl⟩

end ProviderProtocol.Value
