import ProviderProtocol.Proofs.Value.Equality
import ProviderProtocol.Proofs.Value.Walk
/-!
# Walking a value along its own paths

In a set an item is addressed by itself and found by equality, so a walk along the path of a node need not end at that
node but at one that is the same or equal: they are `Alike`.  Such a walk gets to its end if every item that the path
goes through is known throughout (`walkFrom_own`).  The first item that is not is not found, since it equals nothing,
and the walk is missing from there on (`walkFrom_own_missing`).
-/
namespace ProviderProtocol

/-- Every item of a set that the path goes through is known throughout. -/
def Path.KeysKnown (p : Path) : Prop := ∀ k, Step.element k ∈ p → k.fullyKnown = true

theorem Path.keysKnown_cons {step : Step} {p : Path} :
    Path.KeysKnown (step :: p) ↔ (∀ k, step = .element k → k.fullyKnown = true) ∧ Path.KeysKnown p := by
  constructor
  · intro h
    refine ⟨fun k hk => h k ?_, fun k hk => h k (List.mem_cons_of_mem _ hk)⟩
    rw [hk]
    exact List.mem_cons_self
  · rintro ⟨hstep, hp⟩ k hk
    rcases List.mem_cons.1 hk with he | hk
    · exact hstep k he.symm
    · exact hp k hk

def Step.keyKnown : Step → Bool
  | .element k => k.fullyKnown
  | _          => true

theorem Path.keysKnown_iff {p : Path} : p.KeysKnown ↔ p.all Step.keyKnown = true := by
  rw [List.all_eq_true]
  constructor
  · intro h step hstep
    cases step with
    | element k => exact h k hstep
    | _         => rfl
  · exact fun h k hk => h (.element k) hk

instance (p : Path) : Decidable p.KeysKnown := decidable_of_iff _ Path.keysKnown_iff.symm

namespace Value

/-- The same value, or one equal to it. -/
def Alike (v w : Value) : Prop := v = w ∨ v.equal w = true

theorem Alike.equal {v w : Value} (h : v.Alike w) (hw : w.WellFormed) (hk : w.fullyKnown = true) :
    v.equal w = true := by
  rcases h with rfl | h
  · exact equal_self hw hk
  · exact h

theorem Alike.null {v : Value} {t : Ty} (h : v.Alike (.null t)) : v = .null t := by
  rcases h with h | h
  · exact h
  · exact equal_null_right h

theorem Alike.list {v : Value} {t : Ty} {ys : List Value} (h : v.Alike (known t (.list ys))) :
    ∃ xs, v = known t (.list xs) ∧
      ∃ zs, zs.Perm ys ∧ (t.isSet = false → zs = ys) ∧ List.Forall₂ Alike xs zs := by
  rcases h with rfl | h
  · exact ⟨ys, rfl, ys, .refl ys, fun _ => rfl, List.forall₂_same.2 fun y _ => .inl rfl⟩
  · obtain ⟨xs, rfl⟩ := equal_list_right h
    obtain ⟨_, he, zs, hp, hzs, hall⟩ := equal_list h
    cases he
    exact ⟨xs, rfl, zs, hp, hzs, hall.imp fun _ _ => .inr⟩

theorem Alike.map {v : Value} {t : Ty} {fs : List (String × Value)} (h : v.Alike (known t (.map fs)))
    (hv : v.WellFormed) (hw : (known t (.map fs)).WellFormed) :
    ∃ es, v = known t (.map es) ∧ Table.names es = Table.names fs ∧
      ∀ e ∈ es, ∃ y, Table.find? e.1 fs = some y ∧ e.2.Alike y := by
  rcases h with rfl | h
  · exact ⟨fs, rfl, rfl, fun e he => ⟨e.2, Table.find?_of_mem hv.ascending he, .inl rfl⟩⟩
  · obtain ⟨es, rfl⟩ := equal_map_right h
    obtain ⟨_, he, hnames, hall⟩ := equal_map h hv.ascending hw
    cases he
    refine ⟨es, rfl, hnames, fun e he => ?_⟩
    obtain ⟨y, hy, heq⟩ := hall e he
    exact ⟨y, hy, .inr heq⟩

/-! ## One step -/

theorem child_itemStep (full : Path) {t : Ty} {xs : List Value} (h : shapeFault? t (.list xs) = none) (i : Nat)
    (x : Value) (ys : List Value) :
    child full t (t.itemStep i x) (.list ys) = .ok (if t.isSet then ys.find? (·.equal x) else ys[i]?) := by
  have hi : ¬ (i : Int) < 0 := by omega
  rcases shapeFault?_list.1 h with ⟨e, rfl | rfl, _⟩ | rfl
  · exact congrArg Except.ok (if_neg hi)
  · rfl
  · exact congrArg Except.ok (if_neg hi)

theorem child_entryStep (full : Path) {t : Ty} {es : List (String × Value)} (h : (known t (.map es)).WellFormed)
    {k : String} (hk : k ∈ Table.names es) (fs : List (String × Value)) :
    child full t (t.entryStep k) (.map fs) = .ok (Table.find? k fs) := by
  rcases (shapeFault?_map h.1 h.ascending).1 h.2.1 with ⟨e, rfl, _⟩ | rfl
  · rfl
  · have hhas : Table.has k (entryTypes es) = true := by
      rw [Table.has_iff, names_entryTypes]
      exact hk
    exact if_pos hhas

theorem itemStep_element {t : Ty} {i : Nat} {x : Value} (h : t.isSet = true) : t.itemStep i x = .element x := by
  cases t with
  | set e => rfl
  | _     => cases h

theorem itemStep_eq_element {t : Ty} {i : Nat} {x k : Value} (h : Step.element k = t.itemStep i x) :
    t.isSet = true ∧ k = x := by
  cases t with
  | set e =>
    cases h
    exact ⟨rfl, rfl⟩
  | _ => cases h

theorem entryStep_ne_element {t : Ty} {key : String} {k : Value} : Step.element k ≠ t.entryStep key := by
  intro h
  cases t <;> cases h

theorem find?_alike {xs : List Value} {y : Value} (h : ∃ x ∈ xs, x.Alike y) (hy : y.WellFormed)
    (hk : y.fullyKnown = true) : ∃ x, xs.find? (·.equal y) = some x ∧ x.Alike y := by
  cases hf : xs.find? (·.equal y) with
  | some x =>
    have hxy := List.find?_some hf
    exact ⟨x, rfl, .inr hxy⟩
  | none   =>
    obtain ⟨x, hx, hxy⟩ := h
    exact absurd (hxy.equal hy hk) (List.find?_eq_none.1 hf x hx)

/-- From a value alike, the step to a child selects a child alike, unless it is an item that is not known throughout. -/
theorem Alike.child (full : Path) {v w : Value} (h : v.Alike w) (hv : v.WellFormed) (hw : w.WellFormed) {i : Nat}
    {step : Step} {y : Value} (hc : w.children[i]? = some (step, y))
    (hk : ∀ k, step = .element k → k.fullyKnown = true) :
    ∃ t d x, v = known t d ∧ Value.child full t step d = .ok (some x) ∧ x.Alike y ∧ x.WellFormed := by
  cases w with
  | null t    => cases hc
  | unknown t => cases hc
  | known t content =>
    cases content with
    | list ys =>
      obtain ⟨hy, hstep⟩ := mem_children_list hc
      obtain rfl : step = t.itemStep i y := hstep
      obtain ⟨xs, rfl, zs, hp, hzs, hall⟩ := h.list
      have hmem : y ∈ ys := List.mem_of_getElem? hy
      cases ht : t.isSet with
      | true =>
        have hex := exists_mem_left hall (hp.symm.subset hmem)
        obtain ⟨x, hx, hxy⟩ := find?_alike hex (hw.items y hmem) (hk y (itemStep_element ht))
        refine ⟨t, _, x, rfl, ?_, hxy, hv.items x (List.mem_of_find?_eq_some hx)⟩
        rw [child_itemStep full hw.2.1, ht, ← hx]
        rfl
      | false =>
        obtain rfl := hzs ht
        obtain ⟨x, hx, hxy⟩ := getElem?_of_forall₂ hall hy
        refine ⟨t, _, x, rfl, ?_, hxy, hv.items x (List.mem_of_getElem? hx)⟩
        rw [child_itemStep full hw.2.1, ht, ← hx]
        rfl
    | map fs =>
      obtain ⟨k, hkf, hstep⟩ := mem_children_map hc
      obtain rfl : step = t.entryStep k := hstep
      obtain ⟨es, rfl, hnames, hall⟩ := h.map hv hw
      have hkey : k ∈ Table.names fs := Table.mem_names hkf
      obtain ⟨x, hx, hxy⟩ := Table.exists_mem_of_found (R := Alike) hw.ascending hnames hall hkf
      refine ⟨t, _, x, rfl, ?_, hxy, hv.entries (k, x) hx⟩
      rw [child_entryStep full hw hkey, Table.find?_of_mem hv.ascending hx]
    | string s => cases hc
    | number n => cases hc
    | bool b   => cases hc

/-- An item that is not known throughout is not found. -/
theorem Alike.child_none (full : Path) {v w : Value} (h : v.Alike w) (hv : v.WellFormed) (hw : w.WellFormed) {i : Nat}
    {k y : Value} (hc : w.children[i]? = some (.element k, y)) (hk : k.fullyKnown = false) :
    ∃ t d, v = known t d ∧ Value.child full t (.element k) d = .ok none := by
  cases w with
  | null t    => cases hc
  | unknown t => cases hc
  | known t content =>
    cases content with
    | list ys =>
      obtain ⟨hy, hstep⟩ := mem_children_list hc
      obtain ⟨ht, rfl⟩ := itemStep_eq_element hstep
      obtain ⟨xs, rfl, _⟩ := h.list
      refine ⟨t, _, rfl, ?_⟩
      have hnone : xs.find? (·.equal k) = none := by
        rw [List.find?_eq_none]
        intro x hx heq
        have hknown := (fullyKnown_of_equal (hv.items x hx) (hw.items k (List.mem_of_getElem? hy)) heq).2
        rw [hk] at hknown
        cases hknown
      rw [← itemStep_element (i := i) ht, child_itemStep full hw.2.1, ht, ← hnone]
      rfl
    | map fs =>
      obtain ⟨key, _, hstep⟩ := mem_children_map hc
      exact absurd hstep entryStep_ne_element
    | string s => cases hc
    | number n => cases hc
    | bool b   => cases hc

/-! ## The whole path

After a set step the walk goes on in an item that equals the one on the path and need not be it; so the value that is
walked and the value that the path is read off are two values from the start. -/

theorem walkFrom_own (full : Path) : ∀ {q : Position} {v w : Value} {p : Path} {x : Value}, v.Alike w → v.WellFormed →
    w.WellFormed → node? q w = some (p, x) → p.KeysKnown → ∃ y, walkFrom full p v = .ok (.reached y) ∧ y.Alike x
  | [], v, w, p, x, h, _, _, hn, _        => by
    cases hn
    exact ⟨v, rfl, h⟩
  | i :: q, v, w, p, x, h, hv, hw, hn, hk => by
    obtain ⟨step, y, r, hc, hr, rfl⟩ := node?_cons hn
    obtain ⟨hstep, hrest⟩ := Path.keysKnown_cons.1 hk
    obtain ⟨t, d, z, rfl, hz, hzy, hzw⟩ := h.child full hv hw hc hstep
    rw [walkFrom_of_some hz]
    exact walkFrom_own full hzy hzw (hw.child hc).2 hr hrest

theorem walkFrom_own_missing (full : Path) : ∀ {q : Position} {v w : Value} {p : Path} {x : Value}, v.Alike w →
    v.WellFormed → w.WellFormed → node? q w = some (p, x) → ¬ p.KeysKnown →
    ∃ y, walkFrom full p v = .ok (.missing y)
  | [], v, w, p, x, _, _, _, hn, hk       => by
    cases hn
    exact absurd (fun k hm => by cases hm) hk
  | i :: q, v, w, p, x, h, hv, hw, hn, hk => by
    obtain ⟨step, y, r, hc, hr, rfl⟩ := node?_cons hn
    by_cases hstep : ∀ k, step = .element k → k.fullyKnown = true
    · obtain ⟨t, d, z, rfl, hz, hzy, hzw⟩ := h.child full hv hw hc hstep
      rw [walkFrom_of_some hz]
      exact walkFrom_own_missing full hzy hzw (hw.child hc).2 hr fun hrest => hk (Path.keysKnown_cons.2 ⟨hstep, hrest⟩)
    · obtain ⟨k, hstep⟩ := not_forall.1 hstep
      obtain ⟨rfl, hunknown⟩ := Classical.not_imp.1 hstep
      obtain ⟨t, d, rfl, hnone⟩ := h.child_none full hv hw hc (by simpa using hunknown)
      exact ⟨_, walkFrom_of_none hnone⟩

end Value

end ProviderProtocol
