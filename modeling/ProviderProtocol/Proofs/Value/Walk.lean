import ProviderProtocol.Proofs.Value.Node
/-!
# Walks along paths that fit

A walk along a path that fits the type of the value is never a fault, and what it reaches has the type the path leads to
(`walkFrom_sound`): a step that fits selects a child of the right type, if any (`child_sound`).
-/
namespace ProviderProtocol.Value

theorem walkFrom_of_some {full p : Path} {t : Ty} {step : Step} {c : Content} {x : Value}
    (h : child full t step c = .ok (some x)) : walkFrom full (step :: p) (known t c) = walkFrom full p x := by
  rw [walkFrom, h]

theorem walkFrom_of_content? {full p : Path} {step : Step} {v : Value} (h : v.content? = none) :
    walkFrom full (step :: p) v = .ok (.blocked v) := by
  cases v with
  | null t    => rfl
  | unknown t => rfl
  | known t c => cases h

theorem walkFrom_of_none {full p : Path} {t : Ty} {step : Step} {c : Content} (h : child full t step c = .ok none) :
    walkFrom full (step :: p) (known t c) = .ok (.missing (known t c)) := by
  rw [walkFrom, h]

theorem mem_of_index {i : Int} {xs : List α} {x : α} (h : (if i < 0 then none else xs[i.toNat]?) = some x) :
    x ∈ xs := by
  split at h
  · cases h
  · exact List.mem_of_getElem? h

/-- The whole path is for the fault only. -/
theorem child_path {full full' : Path} {t : Ty} {step : Step} {c : Content} {o : Option Value}
    (h : child full t step c = .ok o) : child full' t step c = .ok o := by
  unfold child at h ⊢
  split at h
  · split at h
    · split at h
      · rename_i hhas
        exact (if_pos hhas).trans h
      · cases h
    · cases h
  · split at h
    · exact h
    · cases h
  · split at h
    · exact h
    · exact h
    · cases h
  · split at h
    · exact h
    · cases h
  · cases h

theorem WellFormed.of_child {full : Path} {t : Ty} {step : Step} {c : Content} {x : Value}
    (h : (known t c).WellFormed) (hx : Value.child full t step c = .ok (some x)) : x.WellFormed := by
  unfold Value.child at hx
  split at hx
  · split at hx
    · split at hx
      · exact h.entries (_, x) (Table.mem_of_find? (Except.ok.inj hx))
      · cases hx
    · cases hx
  · split at hx
    · exact h.entries (_, x) (Table.mem_of_find? (Except.ok.inj hx))
    · cases hx
  · split at hx
    · exact h.items x (mem_of_index (Except.ok.inj hx))
    · exact h.items x (mem_of_index (Except.ok.inj hx))
    · cases hx
  · split at hx
    · exact h.items x (List.mem_of_find?_eq_some (Except.ok.inj hx))
    · cases hx
  · cases hx

theorem equal_of_child_element {full : Path} {t : Ty} {key x : Value} {c : Content}
    (h : child full t (.element key) c = .ok (some x)) : x.equal key = true := by
  unfold child at h
  split at h
  · rename_i heq
    cases heq
  · rename_i heq
    cases heq
  · rename_i heq
    cases heq
  · rename_i heq
    cases heq
    split at h
    · have hfind := List.find?_some (Except.ok.inj h)
      exact hfind
    · cases h
  · cases h

/-- A step that fits the type of a known value selects a child of the type it leads to, or none. -/
theorem child_sound (full : Path) {t u : Ty} {step : Step} {c : Content} (h : (known t c).WellFormed)
    (hs : t.step? step = some u) :
    ∃ o, child full t step c = .ok o ∧ ∀ x, o = some x → x.ty = u ∧ x.WellFormed := by
  cases c with
  | string s =>
    obtain rfl := shapeFault?_string.1 h.2.1
    cases hs
  | number n =>
    obtain rfl := shapeFault?_number.1 h.2.1
    cases hs
  | bool b =>
    obtain rfl := shapeFault?_bool.1 h.2.1
    cases hs
  | list xs =>
    rcases shapeFault?_list.1 h.2.1 with ⟨e, rfl | rfl, he⟩ | rfl
    · cases step with
      | index i =>
        cases hs
        refine ⟨_, rfl, fun x hx => ?_⟩
        have hm : x ∈ xs := mem_of_index hx
        exact ⟨he x hm, h.items x hm⟩
      | _ => cases hs
    · cases step with
      | element key =>
        cases hs
        refine ⟨_, rfl, fun x hx => ?_⟩
        have hm : x ∈ xs := List.mem_of_find?_eq_some hx
        exact ⟨he x hm, h.items x hm⟩
      | _ => cases hs
    · cases step with
      | index i =>
        refine ⟨_, rfl, fun x hx => ⟨?_, h.items x (mem_of_index hx)⟩⟩
        have hs : (if i < 0 then none else (xs.map Value.ty)[i.toNat]?) = some u := hs
        split at hx
        · cases hx
        · rename_i hi
          rw [if_neg hi, List.getElem?_map, hx] at hs
          cases hs
          rfl
      | _ => cases hs
  | map es =>
    rcases (shapeFault?_map h.1 h.ascending).1 h.2.1 with ⟨e, rfl, he⟩ | rfl
    · cases step with
      | key k =>
        cases hs
        refine ⟨_, rfl, fun x hx => ?_⟩
        have hm : (k, x) ∈ es := Table.mem_of_find? hx
        exact ⟨he (k, x) hm, h.entries (k, x) hm⟩
      | _ => cases hs
    · cases step with
      | key k     => cases hs
      | index i   => cases hs
      | element v => cases hs
      | _ =>
        rename_i name
        have hs : Table.find? name (entryTypes es) = some u := hs
        have hhas : Table.has name (entryTypes es) = true := by rw [Table.has, hs]; rfl
        refine ⟨Table.find? name es, ?_, fun x hx => ⟨?_, h.entries (name, x) (Table.mem_of_find? hx)⟩⟩
        · unfold child
          exact if_pos hhas
        · rw [entryTypes, Table.find?_map, hx] at hs
          cases hs
          rfl

/-- **Walking is sound for types.** -/
theorem walkFrom_sound (full : Path) : ∀ {p : Path} {v : Value} {u : Ty}, v.WellFormed → v.ty.along? p = some u →
    ∃ w, walkFrom full p v = .ok w ∧ ∀ x, w = .reached x → x.ty = u ∧ x.WellFormed
  | [], v, u, h, hp        => by
    cases hp
    refine ⟨.reached v, rfl, fun x hx => ?_⟩
    cases hx
    exact ⟨rfl, h⟩
  | step :: p, v, u, h, hp => by
    cases hc : v.content? with
    | none =>
      refine ⟨.blocked v, walkFrom_of_content? hc, fun x hx => ?_⟩
      cases hx
    | some c =>
      obtain ⟨t, rfl⟩ : ∃ t, v = known t c := by
        cases v with
        | null t    => cases hc
        | unknown t => cases hc
        | known t d =>
          cases hc
          exact ⟨t, rfl⟩
      obtain ⟨w, hs, hw⟩ := Option.bind_eq_some_iff.1 hp
      obtain ⟨o, ho, hchild⟩ := child_sound full h hs
      cases o with
      | none =>
        refine ⟨.missing (known t c), walkFrom_of_none ho, fun x hx => ?_⟩
        cases hx
      | some x =>
        obtain ⟨rfl, hx⟩ := hchild x rfl
        rw [walkFrom_of_some ho]
        exact walkFrom_sound full hx hw

theorem walk_ty {v x : Value} {u : Ty} {p : Path} (h : v.WellFormed) (hp : v.ty.along? p = some u)
    (hx : v.walk p = .ok (some x)) : x.ty = u := by
  obtain ⟨w, hw, hreached⟩ := walkFrom_sound p h hp
  unfold walk walkDeepest at hx
  rw [hw] at hx
  cases w with
  | reached y =>
    cases hx
    exact (hreached x rfl).1
  | blocked y => cases hx
  | missing y => cases hx

end ProviderProtocol.Value
