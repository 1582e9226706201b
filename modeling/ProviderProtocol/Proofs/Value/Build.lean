import ProviderProtocol.Proofs.Value.Shape
/-!
# Building values

What the constructors make of well-formed values is well-formed.  Some of them check the content they are given
(`Value.of` and all that go through it); the others read the type off the content, as objects and tuples do, or replace
an attribute by one of its declared type and leave the rest as it is.
-/
namespace ProviderProtocol

namespace Ty

theorem canonicalAttrs_iff : ∀ {attrs : List (String × Ty)}, CanonicalAttrs attrs ↔ ∀ a ∈ attrs, a.2.Canonical
  | []              => by simp [CanonicalAttrs]
  | (k, t) :: attrs => by rw [CanonicalAttrs, canonicalAttrs_iff, List.forall_mem_cons]

theorem canonicalElems_iff : ∀ {elems : List Ty}, CanonicalElems elems ↔ ∀ t ∈ elems, t.Canonical
  | []         => by simp [CanonicalElems]
  | t :: elems => by rw [CanonicalElems, canonicalElems_iff, List.forall_mem_cons]

end Ty

/-! ## Contents -/

namespace Content

/-- The values that a content is made of. -/
def parts : Content → List Value
  | .list xs => xs
  | .map es  => es.map Prod.snd
  | _        => []

/-- Entries are an ascending table. -/
def Ordered : Content → Prop
  | .map es => Table.Ascending es
  | _       => True

theorem wellFormed_iff {c : Content} : c.WellFormed ↔ c.Ordered ∧ ∀ x ∈ c.parts, x.WellFormed := by
  cases c with
  | list xs  => simp [WellFormed, Ordered, parts, itemsWellFormed_iff]
  | map es   => simp only [WellFormed, Ordered, parts, entriesWellFormed_iff, List.forall_mem_map]
  | string s => simp [WellFormed, Ordered, parts]
  | number n => simp [WellFormed, Ordered, parts]
  | bool b   => simp [WellFormed, Ordered, parts]

end Content

namespace Value

theorem of_eq_ok {t : Ty} {c : Content} {v : Value} : of t c = .ok v ↔ shapeFault? t c = none ∧ v = .known t c := by
  unfold of
  cases shapeFault? t c with
  | none       => simp [eq_comm]
  | some fault => simp

/-! ## With a check of the content -/

theorem of_wellFormed {t : Ty} {c : Content} {v : Value} (ht : t.Canonical) (hc : c.WellFormed) (h : of t c = .ok v) :
    v.WellFormed := by
  obtain ⟨hshape, rfl⟩ := of_eq_ok.1 h
  exact ⟨ht, hshape, hc⟩

theorem ofFloatBits_wellFormed {bits : Nat} {v : Value} (h : ofFloatBits bits = .ok v) : v.WellFormed := by
  unfold ofFloatBits at h
  cases hx : Binary64.ofBits? bits with
  | none =>
    rw [hx] at h
    cases h
  | some x =>
    rw [hx] at h
    cases h
    exact ⟨trivial, rfl, trivial⟩

theorem items_wellFormed {xs : List Value} (hxs : ∀ x ∈ xs, x.WellFormed) : (Content.list xs).WellFormed :=
  Content.itemsWellFormed_iff.2 hxs

theorem entries_wellFormed {es : List (String × Value)} (hes : ∀ e ∈ es, e.2.WellFormed) :
    (Content.map (Table.ofList es)).WellFormed :=
  ⟨Table.ofList_ascending es, Content.entriesWellFormed_iff.2 fun e he => hes e (Table.mem_of_mem_ofList he)⟩

theorem ofList_wellFormed {elem : Ty} {xs : List Value} {v : Value} (ht : elem.Canonical)
    (hxs : ∀ x ∈ xs, x.WellFormed) (h : ofList elem xs = .ok v) : v.WellFormed := by
  have hlist : (Ty.list elem).Canonical := ht
  exact of_wellFormed hlist (items_wellFormed hxs) h

theorem mem_of_mem_distinct {xs : List Value} {x : Value} (h : x ∈ distinct xs) : x ∈ xs := by
  have hfold : ∀ (ys kept : List Value),
      x ∈ ys.foldl (fun kept v => if kept.any (·.identical v) then kept else kept ++ [v]) kept → x ∈ kept ∨ x ∈ ys := by
    intro ys
    induction ys with
    | nil => exact fun kept hx => .inl hx
    | cons y ys ih =>
      intro kept hx
      rcases ih _ hx with hx | hx
      · dsimp only at hx
        split at hx
        · exact .inl hx
        · rcases List.mem_append.1 hx with hx | hx
          · exact .inl hx
          · rw [List.mem_singleton.1 hx]
            exact .inr List.mem_cons_self
      · exact .inr (List.mem_cons_of_mem _ hx)
  exact (hfold xs [] h).resolve_left List.not_mem_nil

theorem ofSet_wellFormed {elem : Ty} {xs : List Value} {v : Value} (ht : elem.Canonical)
    (hxs : ∀ x ∈ xs, x.WellFormed) (h : ofSet elem xs = .ok v) : v.WellFormed := by
  have hset : (Ty.set elem).Canonical := ht
  exact of_wellFormed hset (items_wellFormed fun x hx => hxs x (mem_of_mem_distinct hx)) h

theorem ofEntries_wellFormed {elem : Ty} {es : List (String × Value)} {v : Value} (ht : elem.Canonical)
    (hes : ∀ e ∈ es, e.2.WellFormed) (h : ofEntries elem es = .ok v) : v.WellFormed := by
  have hmap : (Ty.map elem).Canonical := ht
  exact of_wellFormed hmap (entries_wellFormed hes) h

/-! ## With the type read off the content -/

theorem entryTypes_canonical {es : List (String × Value)} (hasc : Table.Ascending es)
    (hes : ∀ e ∈ es, e.2.WellFormed) : (Ty.object (entryTypes es)).Canonical := by
  refine ⟨Table.ascending_of_names_eq (names_entryTypes es).symm hasc, Ty.canonicalAttrs_iff.2 fun a ha => ?_⟩
  obtain ⟨e, he, rfl⟩ := List.mem_map.1 ha
  exact (hes e he).canonical

theorem ofAttributes_wellFormed {attrs : List (String × Value)} (h : ∀ a ∈ attrs, a.2.WellFormed) :
    (ofAttributes attrs).WellFormed := by
  have hasc : Table.Ascending (Table.ofList attrs) := Table.ofList_ascending attrs
  have hes : ∀ e ∈ Table.ofList attrs, e.2.WellFormed := fun e he => h e (Table.mem_of_mem_ofList he)
  have ht : (Ty.object (entryTypes (Table.ofList attrs))).Canonical := entryTypes_canonical hasc hes
  exact ⟨ht, (shapeFault?_map ht hasc).2 (.inr rfl), entries_wellFormed h⟩

theorem ofTuple_wellFormed {xs : List Value} (h : ∀ x ∈ xs, x.WellFormed) : (ofTuple xs).WellFormed := by
  refine ⟨Ty.canonicalElems_iff.2 fun t ht => ?_, shapeFault?_list.2 (.inr rfl), Content.itemsWellFormed_iff.2 h⟩
  obtain ⟨x, hx, rfl⟩ := List.mem_map.1 ht
  exact (h x hx).canonical

/-! ## With an attribute replaced -/

theorem setAttribute_eq_ok {v new r : Value} {name : String} (h : v.setAttribute name new = .ok r) :
    ∃ attrs es, v = .known (.object attrs) (.map es) ∧ Table.find? name attrs = some new.ty ∧
      r = .known (.object attrs) (.map (Table.insert name new es)) := by
  unfold setAttribute at h
  cases hdeclared : v.ty.attributes?.bind (Table.find? name) with
  | none =>
    rw [hdeclared] at h
    cases h
  | some t =>
    rw [hdeclared] at h
    dsimp only at h
    by_cases ht : t = new.ty
    · rw [if_neg (not_not_intro ht)] at h
      split at h
      · rename_i ty es
        obtain ⟨attrs, hattrs, hfind⟩ := Option.bind_eq_some_iff.1 hdeclared
        have hty : ty = .object attrs := by
          cases ty <;> simp [Ty.attributes?, Value.ty] at hattrs
          rw [hattrs]
        subst hty
        cases h
        exact ⟨attrs, es, rfl, ht ▸ hfind, rfl⟩
      · cases h
    · rw [if_pos ht] at h
      cases h

/-- The new attribute is of the type that the old one has, so what the entries declare stays. -/
theorem setAttribute_wellFormed {v new r : Value} {name : String} (hv : v.WellFormed) (hnew : new.WellFormed)
    (h : v.setAttribute name new = .ok r) : r.WellFormed := by
  obtain ⟨attrs, es, rfl, hdeclared, rfl⟩ := setAttribute_eq_ok h
  have hasc : Table.Ascending es := hv.ascending
  have hattrs : attrs = entryTypes es := by
    rcases (shapeFault?_map hv.1 hasc).1 hv.2.1 with ⟨e, he, -⟩ | he
    · cases he
    · exact Ty.object.inj he
  -- the declaration is in order, so inserting what it says already changes nothing
  have hsame : entryTypes es = entryTypes (Table.insert name new es) := by
    have hdecl : Table.Ascending (entryTypes es) := Table.ascending_of_names_eq (names_entryTypes es).symm hasc
    unfold entryTypes
    rw [Table.map_insert (fun e => e.2.ty) name new es]
    exact (Table.insert_of_find? hdecl (hattrs ▸ hdeclared)).symm
  refine ⟨hv.1, shapeFault?_map_congr hv.1 hasc hsame hv.2.1, Table.insert_ascending hasc, ?_⟩
  refine Content.entriesWellFormed_iff.2 fun e he => ?_
  rcases Table.mem_of_mem_insert he with rfl | he
  · exact hnew
  · exact hv.entries e he

end Value

end ProviderProtocol
