import ProviderProtocol.Proofs.Postcondition
import ProviderProtocol.Proofs.Value.Build
import ProviderProtocol.Proofs.Value.Equality
import ProviderProtocol.Value.Transform
/-!
# What a traversal hands out and what it returns

If the visits return well-formed values for well-formed nodes, a traversal shows them only well-formed nodes and returns
a well-formed value (`Postcondition.transform_wellFormed`).  A rebuilt node is around whatever the visits made of its
children; its content is checked anew, and the check of one level is enough because the children are well-formed.
-/
namespace ProviderProtocol

/-- The elements by which a path leads through sets are well-formed. -/
def Path.WellFormed (p : Path) : Prop := ∀ v, Step.element v ∈ p → v.WellFormed

theorem Path.wellFormed_concat {p : Path} {step : Step} (hp : p.WellFormed)
    (hstep : ∀ v, step = .element v → v.WellFormed) : Path.WellFormed (p ++ [step]) := by
  intro v hv
  rcases List.mem_append.1 hv with hv | hv
  · exact hp v hv
  · exact hstep v (List.mem_singleton.1 hv).symm

theorem Path.wellFormed_itemStep {p : Path} (hp : p.WellFormed) (t : Ty) (i : Nat) {x : Value} (hx : x.WellFormed) :
    Path.WellFormed (p ++ [t.itemStep i x]) := by
  refine Path.wellFormed_concat hp fun v hv => ?_
  unfold Ty.itemStep at hv
  split at hv
  · cases hv
    exact hx
  · cases hv

theorem Path.wellFormed_entryStep {p : Path} (hp : p.WellFormed) (t : Ty) (k : String) :
    Path.WellFormed (p ++ [t.entryStep k]) := by
  refine Path.wellFormed_concat hp fun v hv => ?_
  unfold Ty.entryStep at hv
  split at hv
  · cases hv
  · cases hv

namespace Postcondition

open Value

variable {m : Type → Type} [Monad m] [MonadExceptOf ProviderError m] (post : Postcondition m)
  {visit : Path → Value → m Value}

theorem rebuild_wellFormed {t : Ty} {c : Content} (ht : t.Canonical) (hc : c.WellFormed) :
    post.holds (rebuild t c : m Value) Value.WellFormed := by
  unfold rebuild
  cases hof : of t c with
  | ok v        => exact post.pure (of_wellFormed ht hc hof)
  | error fault => exact post.throw _

theorem transformItems_forall₂ {R : Value → Value → Prop} {path : Path} {t : Ty} : ∀ {xs : List Value} (i : Nat),
    (∀ x ∈ xs, ∀ j, post.holds (transformAt visit (path ++ [t.itemStep j x]) x) (R x)) →
      post.holds (transformItems visit path t i xs) (List.Forall₂ R xs)
  | [], _, _      => by
    rw [transformItems]
    exact post.pure .nil
  | x :: xs, i, h => by
    obtain ⟨hx, hxs⟩ := List.forall_mem_cons.1 h
    rw [transformItems]
    refine post.bind (hx i) fun y hy => post.bind (transformItems_forall₂ (i + 1) hxs) fun ys hys => ?_
    exact post.pure (.cons hy hys)

/-- The entries keep their names. -/
theorem transformEntries_forall₂ {R : Value → Value → Prop} {path : Path} {t : Ty} : ∀ {es : List (String × Value)},
    (∀ e ∈ es, post.holds (transformAt visit (path ++ [t.entryStep e.1]) e.2) (R e.2)) →
      post.holds (transformEntries visit path t es) (List.Forall₂ (fun e f => e.1 = f.1 ∧ R e.2 f.2) es)
  | [], _           => by
    rw [transformEntries]
    exact post.pure .nil
  | (k, x) :: es, h => by
    obtain ⟨hx, hes⟩ := List.forall_mem_cons.1 h
    rw [transformEntries]
    refine post.bind hx fun y hy => post.bind (transformEntries_forall₂ hes) fun fs hfs => post.pure ?_
    exact .cons ⟨rfl, hy⟩ hfs

theorem transformAt_wellFormed
    (hvisit : ∀ p x, Path.WellFormed p → x.WellFormed → post.holds (visit p x) Value.WellFormed) {v : Value} :
    v.WellFormed → ∀ path, Path.WellFormed path → post.holds (transformAt visit path v) Value.WellFormed := by
  induction v using Value.node_induction with
  | null t => exact fun hv path hp => hvisit path _ hp hv
  | unknown t => exact fun hv path hp => hvisit path _ hp hv
  | string t s => exact fun hv path hp => hvisit path _ hp hv
  | number t n => exact fun hv path hp => hvisit path _ hp hv
  | bool t b => exact fun hv path hp => hvisit path _ hp hv
  | list t xs ih =>
    intro hv path hp
    have hitems : post.holds (transformItems visit path t 0 xs) (List.Forall₂ (fun _ y => y.WellFormed) xs) :=
      post.transformItems_forall₂ 0 fun x hx j =>
        ih x hx (hv.items x hx) _ (Path.wellFormed_itemStep hp t j (hv.items x hx))
    -- the visits may have changed the types of the items; rebuilding refuses the node then
    rw [transformAt]
    refine post.bind hitems fun ys hys => ?_
    have hall : ∀ y ∈ ys, y.WellFormed := fun y hy => by
      obtain ⟨x, _, hwf⟩ := exists_mem_left hys hy
      exact hwf
    exact post.bind (post.rebuild_wellFormed hv.1 (items_wellFormed hall)) fun w hw => hvisit path w hp hw
  | map t es ih =>
    intro hv path hp
    have hentries : post.holds (transformEntries visit path t es)
        (List.Forall₂ (fun e f => e.1 = f.1 ∧ f.2.WellFormed) es) :=
      post.transformEntries_forall₂ (R := fun _ y => y.WellFormed) fun e he =>
        ih e he (hv.entries e he) _ (Path.wellFormed_entryStep hp t e.1)
    rw [transformAt]
    refine post.bind hentries fun fs hfs => ?_
    have hall : ∀ f ∈ fs, f.2.WellFormed := fun f hf => by
      obtain ⟨e, _, hwf⟩ := exists_mem_left hfs hf
      exact hwf.2
    have hnames : Table.names es = Table.names fs := Table.names_eq_of_forall₂ (R := fun _ (y : Value) => y.WellFormed) hfs
    have hc : (Content.map fs).WellFormed :=
      ⟨Table.ascending_of_names_eq hnames hv.ascending, Content.entriesWellFormed_iff.2 hall⟩
    exact post.bind (post.rebuild_wellFormed hv.1 hc) fun w hw => hvisit path w hp hw

/-- **A traversal keeps values well-formed**, whatever the visits put in place of the nodes. -/
theorem transform_wellFormed
    (hvisit : ∀ p x, Path.WellFormed p → x.WellFormed → post.holds (visit p x) Value.WellFormed) {v : Value}
    (hv : v.WellFormed) : post.holds (v.transform visit) Value.WellFormed :=
  post.transformAt_wellFormed hvisit hv [] fun _ h => by cases h

end Postcondition

end ProviderProtocol
