import ProviderProtocol.Proofs.Plan.Marking
import ProviderProtocol.Proofs.Value.OwnPath
/-!
# Marking twice

Marking what has been marked changes nothing (`markComputedUnknown_idempotent`).  In a set this is not plain: an item is
addressed by its value, so the second marking asks the configuration about other paths than the first did.  But an item
changes only by getting an unknown somewhere (`rewriteAt_eq_self`), and then it equals nothing.  A walk towards it is
missing there, or else it has been blocked further up, where it is blocked for every item (`walkFrom_item_not_found`).
So whatever is marked along the new paths is marked along the old ones (`Covers`).
-/
namespace ProviderProtocol

namespace Value

/-! ## Items that nothing equals -/

theorem child_element_ne_some {full : Path} {t : Ty} {c : Content} {y x : Value} (h : (known t c).WellFormed)
    (hy : y.WellFormed) (hk : y.fullyKnown = false) : child full t (.element y) c ≠ .ok (some x) := by
  intro hx
  have hknown := (fullyKnown_of_equal (h.of_child hx) hy (equal_of_child_element hx)).2
  rw [hk] at hknown
  cases hknown

/-- A walk to an item with an unknown in it is missing, or blocked before, and then it is blocked whatever the step. -/
theorem walkFrom_item_not_found {full full' : Path} {y : Value} (hy : y.WellFormed) (hk : y.fullyKnown = false)
    (step : Step) (r r' : Path) : ∀ {p : Path} {v : Value} {w : Walk}, v.WellFormed →
    walkFrom full (p ++ .element y :: r) v = .ok w →
    (∃ u, w = .missing u) ∨ ∃ u, w = .blocked u ∧ walkFrom full' (p ++ step :: r') v = .ok (.blocked u)
  | [], v, w, hv, hw     => by
    cases v with
    | null t    =>
      cases hw
      exact .inr ⟨_, rfl, rfl⟩
    | unknown t =>
      cases hw
      exact .inr ⟨_, rfl, rfl⟩
    | known t c =>
      rw [List.nil_append, walkFrom] at hw
      cases hx : child full t (.element y) c with
      | error fault => rw [hx] at hw; cases hw
      | ok o =>
        cases o with
        | none   =>
          rw [hx] at hw
          cases hw
          exact .inl ⟨_, rfl⟩
        | some x => exact absurd hx (child_element_ne_some hv hy hk)
  | s :: p, v, w, hv, hw => by
    cases v with
    | null t    =>
      cases hw
      exact .inr ⟨_, rfl, rfl⟩
    | unknown t =>
      cases hw
      exact .inr ⟨_, rfl, rfl⟩
    | known t c =>
      rw [List.cons_append, walkFrom] at hw
      cases hx : child full t s c with
      | error fault => rw [hx] at hw; cases hw
      | ok o =>
        cases o with
        | none   =>
          rw [hx] at hw
          cases hw
          exact .inl ⟨_, rfl⟩
        | some x =>
          rw [hx] at hw
          rw [List.cons_append, walkFrom_of_some (child_path hx)]
          exact walkFrom_item_not_found hy hk step r r' (hv.of_child hx) hw

/-! ## What has changed is not known throughout -/

section

variable {f : Path → Value → Value} (hf : ∀ p w, f p w = w ∨ (f p w).fullyKnown = false)

include hf

theorem visit_eq_self {p : Path} {w : Value} (h : (f p w).fullyKnown = true) : f p w = w := by
  refine (hf p w).resolve_right fun hunknown => ?_
  rw [h] at hunknown
  cases hunknown

theorem rewriteAt_eq_self {v : Value} : ∀ {path : Path}, (rewriteAt f path v).fullyKnown = true →
    rewriteAt f path v = v := by
  induction v using Value.node_induction with
  | null t => exact fun h => visit_eq_self hf h
  | unknown t => exact fun h => visit_eq_self hf h
  | string t s => exact fun h => visit_eq_self hf h
  | number t n => exact fun h => visit_eq_self hf h
  | bool t b => exact fun h => visit_eq_self hf h
  | list t xs ih =>
    intro path h
    have hnode : rewriteAt f path (known t (.list xs)) = known t (.list (rewriteItems f path t 0 xs)) :=
      visit_eq_self hf h
    rw [hnode] at h ⊢
    have hitems : rewriteItems f path t 0 xs = xs := by
      refine rewriteItems_fixed fun j x hx => ih x (List.mem_of_getElem? hx) ?_
      refine allFullyKnown_iff.1 h _ (List.mem_of_getElem? (i := j) ?_)
      rw [rewriteItems_eq, List.getElem?_mapIdx, hx]
      rfl
    rw [hitems]
  | map t es ih =>
    intro path h
    have hnode : rewriteAt f path (known t (.map es)) = known t (.map (rewriteEntries f path t es)) :=
      visit_eq_self hf h
    rw [hnode] at h ⊢
    have hentries : rewriteEntries f path t es = es := by
      refine rewriteEntries_fixed fun e he => ih e he (entriesFullyKnown_iff.1 h (e.1, _) ?_)
      rw [rewriteEntries_eq]
      exact List.mem_map.2 ⟨e, he, rfl⟩
    rw [hentries]

end

end Value

namespace Schema

/-! ## Old paths and new ones -/

/-- Whatever is marked at or below the second path is marked at the same place below the first. -/
def Covers (s : Schema) (config : Value) (path path' : Path) : Prop :=
  ∀ r, s.Marked config (path' ++ r) → s.Marked config (path ++ r)

section

variable {s : Schema} {config : Value} {path path' : Path}

theorem Covers.not_marked (h : s.Covers config path path') (hm : ¬ s.Marked config path) :
    ¬ s.Marked config path' := by
  intro hm'
  have hnil := h []
  rw [List.append_nil, List.append_nil] at hnil
  exact hm (hnil hm')

theorem Covers.step (h : s.Covers config path path') (step : Step) :
    s.Covers config (path ++ [step]) (path' ++ [step]) := by
  intro r
  rw [List.append_assoc, List.append_assoc]
  exact h (step :: r)

/-- Below an item that nothing equals, nothing is marked that would not be marked below any other item. -/
theorem Marked.other_item (hc : config.WellFormed) {y : Value} (hy : y.WellFormed) (hk : y.fullyKnown = false)
    (x : Value) {r : Path} (h : s.Marked config (path ++ .element y :: r)) :
    s.Marked config (path ++ .element x :: r) := by
  obtain ⟨_, ⟨a, ha, hmode⟩, hnull⟩ := h
  refine ⟨by simp, ⟨a, ?_, hmode⟩, ?_⟩
  · exact (Block.attributeAt?_element x y r s.block path).trans ha
  · have hwalk : ∃ w, config.walkDeepest (path ++ .element y :: r) = .ok w ∧ ∀ u, w ≠ .missing u := by
      rcases hnull with ⟨t, ht⟩ | ⟨u, hu⟩
      · exact ⟨_, ht, nofun⟩
      · exact ⟨_, hu, nofun⟩
    obtain ⟨w, hw, hfound⟩ := hwalk
    rcases Value.walkFrom_item_not_found hy hk (.element x) r r hc hw with ⟨u, rfl⟩ | ⟨u, -, hu⟩
    · exact absurd rfl (hfound u)
    · exact .inr ⟨u, hu⟩

theorem Covers.item (h : s.Covers config path path') (hc : config.WellFormed) {x y : Value} (hy : y.WellFormed)
    (hxy : y = x ∨ y.fullyKnown = false) (t : Ty) (i : Nat) :
    s.Covers config (path ++ [t.itemStep i x]) (path' ++ [t.itemStep i y]) := by
  cases hset : t.isSet with
  | false =>
    have hstep : t.itemStep i y = t.itemStep i x := by
      cases t with
      | set e => cases hset
      | _     => rfl
    rw [hstep]
    exact h.step _
  | true =>
    rcases hxy with rfl | hk
    · exact h.step _
    · intro r hm
      rw [Value.itemStep_element hset, List.append_assoc] at hm ⊢
      exact (h _ hm).other_item hc hy hk x

/-! ## The second marking -/

theorem markWith_unknown (p : Path) (t : Ty) : s.markWith config p (.unknown t) = .unknown t := by
  by_cases h : s.Marked config p
  · exact markWith_of_marked h _
  · exact markWith_of_not_marked h _

theorem markWith_eq_self_or_unknown (p : Path) (v : Value) :
    s.markWith config p v = v ∨ (s.markWith config p v).fullyKnown = false := by
  by_cases h : s.Marked config p
  · rw [markWith_of_marked h]
    exact .inr rfl
  · exact .inl (markWith_of_not_marked h v)

/-- It is enough to look at the children: a marked node is unknown already, and a node that is not is not marked now. -/
theorem Covers.rewriteAt_of_rebuilt (h : s.Covers config path path') {v : Value}
    (hv : Value.rebuilt (s.markWith config) path' (Value.rebuilt (s.markWith config) path v) =
      Value.rebuilt (s.markWith config) path v) :
    Value.rewriteAt (s.markWith config) path' (Value.rewriteAt (s.markWith config) path v) =
      Value.rewriteAt (s.markWith config) path v := by
  rw [Value.rewriteAt_eq path v]
  by_cases hm : s.Marked config path
  · rw [markWith_of_marked hm]
    exact markWith_unknown path' _
  · rw [markWith_of_not_marked hm, Value.rewriteAt_eq, hv]
    exact markWith_of_not_marked (h.not_marked hm) _

/-- What has been marked along one path stays as it is along any path that it covers. -/
theorem Covers.rewriteAt_rewriteAt (hc : config.WellFormed) {v : Value} : v.WellFormed → ∀ {path path' : Path},
    s.Covers config path path' →
    Value.rewriteAt (s.markWith config) path' (Value.rewriteAt (s.markWith config) path v) =
      Value.rewriteAt (s.markWith config) path v := by
  induction v using Value.node_induction with
  | null t => exact fun _ _ _ h => h.rewriteAt_of_rebuilt rfl
  | unknown t => exact fun _ _ _ h => h.rewriteAt_of_rebuilt rfl
  | string t s => exact fun _ _ _ h => h.rewriteAt_of_rebuilt rfl
  | number t n => exact fun _ _ _ h => h.rewriteAt_of_rebuilt rfl
  | bool t b => exact fun _ _ _ h => h.rewriteAt_of_rebuilt rfl
  | list t xs ih =>
    intro hv path path' h
    refine h.rewriteAt_of_rebuilt (congrArg (fun ys => Value.known t (.list ys)) ?_)
    refine Value.rewriteItems_fixed fun j y hy => ?_
    rw [Value.rewriteItems_eq, List.getElem?_mapIdx] at hy
    obtain ⟨x, hx, rfl⟩ := Option.map_eq_some_iff.1 hy
    have hxw : x.WellFormed := hv.items x (List.mem_of_getElem? hx)
    have hyw := markWith_keeps.rewriteAt_wellFormed (f := s.markWith config) hxw (path ++ [t.itemStep (0 + j) x])
    refine ih x (List.mem_of_getElem? hx) hxw (h.item hc hyw ?_ t _)
    by_cases hk : (Value.rewriteAt (s.markWith config) (path ++ [t.itemStep (0 + j) x]) x).fullyKnown = true
    · exact .inl (Value.rewriteAt_eq_self markWith_eq_self_or_unknown hk)
    · exact .inr (Bool.eq_false_iff.2 hk)
  | map t es ih =>
    intro hv path path' h
    refine h.rewriteAt_of_rebuilt (congrArg (fun fs => Value.known t (.map fs)) ?_)
    refine Value.rewriteEntries_fixed fun d hd => ?_
    rw [Value.rewriteEntries_eq] at hd
    obtain ⟨e, he, rfl⟩ := List.mem_map.1 hd
    exact ih e he (hv.entries e he) (h.step _)

end

/-- **Marking is idempotent**, node for node. -/
theorem markComputedUnknown_idempotent (s : Schema) {config proposed : Value} (hc : config.WellFormed)
    (hp : proposed.WellFormed) (hct : config.ty = s.valueType) (hpt : proposed.ty = s.valueType) :
    ∃ r, s.markComputedUnknown config proposed = .ok r ∧ s.markComputedUnknown config r = .ok r := by
  have hrefl : s.Covers config [] [] := fun _ h => h
  refine ⟨_, markComputedUnknown_eq_ok hc hp (hpt.trans hct.symm), ?_⟩
  have hwf := markWith_keeps.rewriteAt_wellFormed (f := s.markWith config) hp []
  have hty := markWith_keeps.rewriteAt_ty (f := s.markWith config) [] proposed
  rw [markComputedUnknown_eq_ok hc hwf (hty.trans (hpt.trans hct.symm)), hrefl.rewriteAt_rewriteAt hc hp]

/-! ### Fleets of machines

The machines are themselves in a set, so that a disk is below two items, and an `id` for either changes what it is
addressed by. -/

def fleetSchema : Schema := (Schema.new 0).addBlock "machine" (.new .set) machineSchema.block

def machineTy : Ty := .object [("disk", .set diskTy), ("id", .string)]

def fleet (machines : List Value) : Value :=
  .known (.object [("machine", .set machineTy)]) (.map [("machine", .known (.set machineTy) (.list machines))])

/-- The configuration has the first of the two machines; its disk is marked, and nothing equals it after that. -/
theorem markComputedUnknown_idempotent_fleet :
    let first := machine (.null .string) [disk (.ofString "a")]
    let second := machine (.null .string) [disk (.ofString "b")]
    (fleet [first]).WellFormed ∧ (fleet [first, second]).WellFormed ∧ (fleet [first]).ty = fleetSchema.valueType ∧
      (fleet [first, second]).ty = fleetSchema.valueType ∧
      ∃ r, fleetSchema.markComputedUnknown (fleet [first]) (fleet [first, second]) = .ok r ∧
        fleetSchema.markComputedUnknown (fleet [first]) r = .ok r ∧
        r.nodeAt? [0, 0, 0, 0, 0] = some (.unknown .string) ∧ r.nodeAt? [0, 1] = some second := by
  intro first second
  have hfirst : (fleet [first]).WellFormed := by decide
  have hboth : (fleet [first, second]).WellFormed := by decide
  obtain ⟨r, hr, htwice⟩ :=
    markComputedUnknown_idempotent fleetSchema hfirst hboth (by decide) (by decide)
  refine ⟨hfirst, hboth, by decide, by decide, r, hr, htwice, ?_⟩
  have hmark : fleetSchema.markComputedUnknown (fleet [first]) (fleet [first, second]) =
      .ok (fleet [machine (.unknown .string) [.known diskTy
        (.map [("id", .unknown .string), ("label", .ofString "a")])], second]) := rfl
  rw [hmark] at hr
  cases hr
  exact ⟨rfl, rfl⟩

end Schema

end ProviderProtocol
