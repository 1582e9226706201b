import ProviderProtocol.Codec.Payload
import ProviderProtocol.Proofs.Postcondition
import ProviderProtocol.Proofs.Value.Build
/-!
# What is read, and where reading fails

Whatever the tree, a value that is read for a canonical type is well-formed and of that type, and if there is none the
error tells the path of the node at fault (`ofMsgpack_placed`).  The readers are directed by the type, so canonical types
are passed down to the children.  What was read for the children makes a content that agrees with the type: the check of
the content, which comes last and knows no path, never fails.
-/
namespace ProviderProtocol

/-- The path that the error names, if it is about a node of what is read. -/
def ProviderError.place? : ProviderError → Option Path
  | .decode (.expected path _ _) | .decode (.unsupported path _) => some path
  | _                                                            => none

/-- The error is about the node at this path, and its message starts with that. -/
structure ProviderError.Names (e : ProviderError) (path : Path) : Prop where
  place : e.place? = some path
  message : ∃ why, e.message = "at " ++ path.place ++ ": " ++ why

theorem ProviderError.names_of_place? {e : ProviderError} {path : Path} (h : e.place? = some path) : e.Names path := by
  refine ⟨h, ?_⟩
  unfold place? at h
  split at h
  · rename_i t found
    cases h
    have hword : ": expected " = ": " ++ "expected " := by decide
    refine ⟨"expected " ++ t.text ++ ", got " ++ found.message, ?_⟩
    rw [message, DecodeFault.message, hword]
    simp only [String.append_assoc]
  · rename_i name
    cases h
    have hword : ": unsupported attribute " = ": " ++ "unsupported attribute " := by decide
    refine ⟨"unsupported attribute " ++ Text.quote name, ?_⟩
    rw [message, DecodeFault.message, hword]
    simp only [String.append_assoc]
  · cases h

/-- The result is such; the error, if there is one instead, names a path. -/
structure Placed (x : Except ProviderError α) (P : α → Prop) : Prop where
  yields : Yields x P
  place : ∀ e, x = .error e → ∃ path, e.place? = some path

theorem Placed.ok {a : α} {P : α → Prop} (h : P a) : Placed (.ok a) P :=
  ⟨.ok h, fun _ he => nomatch he⟩

theorem Placed.error {e : ProviderError} {path : Path} {P : α → Prop} (h : e.place? = some path) :
    Placed (.error e : Except ProviderError α) P := by
  refine ⟨.error, fun e' he => ?_⟩
  cases he
  exact ⟨path, h⟩

theorem Placed.bind {x : Except ProviderError α} {f : α → Except ProviderError β} {Q : α → Prop} {P : β → Prop}
    (h : Placed x Q) (hf : ∀ a, Q a → Placed (f a) P) : Placed (x >>= f) P := by
  cases x with
  | ok a    => exact hf a (h.yields a rfl)
  | error e =>
    obtain ⟨path, hpath⟩ := h.place e rfl
    exact .error hpath

namespace Value

/-- A well-formed value of this type. -/
def Inhabits (v : Value) (t : Ty) : Prop := v.ty = t ∧ v.WellFormed

/-! ## Steps of reading -/

theorem ofRead_of_shape {t : Ty} {c : Content} (h : shapeFault? t c = none) : ofRead t c = .ok (.known t c) := by
  unfold ofRead of
  rw [h]
  rfl

theorem placed_unexpected (path : Path) (t : Ty) (found : Found) {P : α → Prop} :
    Placed (unexpected path t found : Except ProviderError α) P := .error rfl

theorem placed_ofRead {t : Ty} {c : Content} (ht : t.Canonical) (hshape : shapeFault? t c = none) (hc : c.WellFormed) :
    Placed (ofRead t c) fun v => v.Inhabits t := by
  rw [ofRead_of_shape hshape]
  exact .ok ⟨rfl, ht, hshape, hc⟩

theorem placed_ofNumeralText (path : Path) (s : Option String) :
    Placed (ofNumeralText path .number s) fun v => v.Inhabits .number := by
  unfold ofNumeralText
  cases s.bind Number.ofText? with
  | some n => exact placed_ofRead trivial rfl trivial
  | none   => exact placed_unexpected ..

theorem placed_key (path : Path) (t : Ty) (m : Msgpack) : Placed (keyOfMsgpack path t m) fun _ => True := by
  unfold keyOfMsgpack
  split
  · split
    · exact .ok trivial
    · exact placed_unexpected ..
  · exact placed_unexpected ..

theorem placed_list {t elem : Ty} {xs : Except ProviderError (List Value)} (ht : t.Canonical)
    (helem : t = .list elem ∨ t = .set elem) (hxs : Placed xs fun xs => ∀ x ∈ xs, x.Inhabits elem) :
    Placed (do ofRead t (.list (← xs))) fun v => v.Inhabits t := by
  refine hxs.bind fun xs hall => placed_ofRead ht ?_ (items_wellFormed fun x hx => (hall x hx).2)
  exact shapeFault?_list.2 (.inl ⟨elem, helem, fun x hx => (hall x hx).1⟩)

theorem placed_tuple {ts : List Ty} {xs : Except ProviderError (List Value)} (ht : (Ty.tuple ts).Canonical)
    (hxs : Placed xs fun xs => xs.map Value.ty = ts ∧ ∀ x ∈ xs, x.WellFormed) :
    Placed (do ofRead (.tuple ts) (.list (← xs))) fun v => v.Inhabits (.tuple ts) := by
  refine hxs.bind fun xs ⟨htypes, hall⟩ => placed_ofRead ht ?_ (items_wellFormed hall)
  exact shapeFault?_list.2 (.inr (congrArg Ty.tuple htypes.symm))

theorem placed_map {elem : Ty} {es : Except ProviderError (List (String × Value))} (ht : elem.Canonical)
    (hes : Placed es fun es => ∀ e ∈ es, e.2.Inhabits elem) :
    Placed (do ofRead (.map elem) (.map (Table.ofList (← es)))) fun v => v.Inhabits (.map elem) := by
  refine hes.bind fun es hall => placed_ofRead ht ?_ (entries_wellFormed fun e he => (hall e he).2)
  have htypes : ∀ e ∈ Table.ofList es, e.2.ty = elem := fun e he => (hall e (Table.mem_of_mem_ofList he)).1
  exact (shapeFault?_map (t := .map elem) ht (Table.ofList_ascending es)).2 (.inl ⟨elem, rfl, htypes⟩)

/-! ### Objects

An attribute that is absent is a null of its declared type. -/

theorem names_completed (attrs : List (String × Ty)) (es : List (String × Value)) :
    Table.names (completed attrs es) = Table.names attrs := by
  unfold Table.names completed
  rw [List.map_map]
  rfl

theorem completed_ascending {attrs : List (String × Ty)} (ha : Table.Ascending attrs) (es : List (String × Value)) :
    Table.Ascending (completed attrs es) :=
  Table.ascending_of_names_eq (names_completed attrs es).symm ha

theorem completed_wellFormed {attrs : List (String × Ty)} {es : List (String × Value)}
    (ht : (Ty.object attrs).Canonical) (hes : ∀ e ∈ es, e.2.WellFormed) :
    (Content.map (completed attrs es)).WellFormed := by
  obtain ⟨hasc, hattrs⟩ := ht
  refine ⟨completed_ascending hasc es, Content.entriesWellFormed_iff.2 fun e he => ?_⟩
  obtain ⟨a, ha, rfl⟩ := List.mem_map.1 he
  show ((Table.find? a.1 es).getD (.null a.2)).WellFormed
  cases hf : Table.find? a.1 es with
  | none   => exact Ty.canonicalAttrs_iff.1 hattrs a ha
  | some v => exact hes _ (Table.mem_of_find? hf)

theorem entryTypes_completed {attrs : List (String × Ty)} {es : List (String × Value)} (ha : Table.Ascending attrs)
    (hes : ∀ e ∈ es, Table.find? e.1 attrs = some e.2.ty) : entryTypes (completed attrs es) = attrs := by
  unfold entryTypes completed
  rw [List.map_map]
  refine (List.map_congr_left fun a hmem => ?_).trans (List.map_id attrs)
  show (a.1, ((Table.find? a.1 es).getD (.null a.2)).ty) = a
  cases hf : Table.find? a.1 es with
  | none   => rfl
  | some v =>
    have hv : Table.find? a.1 attrs = some v.ty := hes _ (Table.mem_of_find? hf)
    rw [Table.find?_of_mem ha hmem] at hv
    have hty : a.2 = v.ty := Option.some.inj hv
    show (a.1, v.ty) = a
    rw [← hty]

theorem placed_object {attrs : List (String × Ty)} {es : Except ProviderError (List (String × Value))}
    (ht : (Ty.object attrs).Canonical)
    (hes : Placed es fun es => ∀ e ∈ es, Table.find? e.1 attrs = some e.2.ty ∧ e.2.WellFormed) :
    Placed (do ofRead (.object attrs) (.map (completed attrs (Table.ofList (← es)))))
      fun v => v.Inhabits (.object attrs) := by
  refine hes.bind fun es hall => ?_
  have hentries : ∀ e ∈ Table.ofList es, Table.find? e.1 attrs = some e.2.ty ∧ e.2.WellFormed :=
    fun e he => hall e (Table.mem_of_mem_ofList he)
  have htypes : entryTypes (completed attrs (Table.ofList es)) = attrs :=
    entryTypes_completed ht.1 fun e he => (hentries e he).1
  refine placed_ofRead ht ?_ (completed_wellFormed ht fun e he => (hentries e he).2)
  exact (shapeFault?_map ht (completed_ascending ht.1 _)).2 (.inr (congrArg Ty.object htypes.symm))

/-! ## From msgpack -/

mutual

/-- **What is read for a type is of the type, and what cannot be read is at fault at some path.** -/
theorem ofMsgpack_placed (path : Path) {t : Ty} (ht : t.Canonical) : ∀ m : Msgpack,
    Placed (ofMsgpack path t m) fun v => v.Inhabits t
  | .nil => by
    rw [ofMsgpack]
    exact .ok ⟨rfl, ht⟩
  | .extension type _ => by
    rw [ofMsgpack]
    split
    · exact .ok ⟨rfl, ht⟩
    · exact placed_unexpected ..
  | .bool b => by
    unfold ofMsgpack
    split
    · exact placed_ofRead ht rfl trivial
    · exact placed_unexpected ..
  | .int n => by
    unfold ofMsgpack
    split
    · split
      · exact placed_ofRead ht rfl trivial
      · exact placed_unexpected ..
    · exact placed_unexpected ..
  | .float x => by
    unfold ofMsgpack
    split
    · split
      · exact placed_ofRead ht rfl trivial
      · exact placed_unexpected ..
    · exact placed_unexpected ..
  | .string bytes => by
    unfold ofMsgpack
    split
    · split
      · exact placed_ofRead ht rfl trivial
      · exact placed_unexpected ..
    · exact placed_ofNumeralText path _
    · exact placed_unexpected ..
  | .binary _ => by
    rw [ofMsgpack]
    exact placed_unexpected ..
  | .array items => by
    unfold ofMsgpack
    split
    · rename_i elem
      exact placed_list ht (.inl rfl) (itemsOfMsgpack_placed path elem ht 0 items)
    · rename_i elem
      exact placed_list ht (.inr rfl) (itemsOfMsgpack_placed path elem ht 0 items)
    · split
      · rename_i hlength
        exact placed_tuple ht (tupleOfMsgpack_placed path 0 (Ty.canonicalElems_iff.1 ht) items hlength)
      · exact placed_unexpected ..
    · exact placed_unexpected ..
  | .map pairs => by
    unfold ofMsgpack
    split
    · rename_i elem
      exact placed_map ht (entriesOfMsgpack_placed path _ elem ht pairs)
    · exact placed_object ht (attributesOfMsgpack_placed path _ (Ty.canonicalAttrs_iff.1 ht.2) pairs)
    · exact placed_unexpected ..

theorem itemsOfMsgpack_placed (path : Path) (elem : Ty) (ht : elem.Canonical) :
    ∀ (i : Nat) (items : List Msgpack),
      Placed (itemsOfMsgpack path elem i items) fun xs => ∀ x ∈ xs, x.Inhabits elem
  | _, []           => by
    rw [itemsOfMsgpack]
    exact .ok (List.forall_mem_nil _)
  | i, item :: rest => by
    rw [itemsOfMsgpack]
    refine (ofMsgpack_placed _ ht item).bind fun x hx => ?_
    exact (itemsOfMsgpack_placed path elem ht (i + 1) rest).bind fun xs hxs => .ok (List.forall_mem_cons.2 ⟨hx, hxs⟩)

theorem tupleOfMsgpack_placed (path : Path) : ∀ (i : Nat) {ts : List Ty}, (∀ t ∈ ts, t.Canonical) →
    ∀ items : List Msgpack, ts.length = items.length →
      Placed (tupleOfMsgpack path i ts items) fun xs => xs.map Value.ty = ts ∧ ∀ x ∈ xs, x.WellFormed
  | i, t :: ts, hts, item :: rest, hlength => by
    obtain ⟨ht, hts⟩ := List.forall_mem_cons.1 hts
    rw [tupleOfMsgpack]
    refine (ofMsgpack_placed _ ht item).bind fun x hx => ?_
    refine (tupleOfMsgpack_placed path (i + 1) hts rest (Nat.succ.inj hlength)).bind fun xs hxs => .ok ?_
    rw [List.map_cons, hx.1, hxs.1]
    exact ⟨rfl, List.forall_mem_cons.2 ⟨hx.2, hxs.2⟩⟩
  | _, [], _, [], _                        => by
    rw [tupleOfMsgpack]
    · exact .ok ⟨rfl, List.forall_mem_nil _⟩
    · intro t ts item rest h
      cases h
  | _, [], _, _ :: _, hlength              => by cases hlength
  | _, _ :: _, _, [], hlength              => by cases hlength

theorem entriesOfMsgpack_placed (path : Path) (t elem : Ty) (ht : elem.Canonical) :
    ∀ pairs : List (Msgpack × Msgpack),
      Placed (entriesOfMsgpack path t elem pairs) fun es => ∀ e ∈ es, e.2.Inhabits elem
  | []                => by
    rw [entriesOfMsgpack]
    exact .ok (List.forall_mem_nil _)
  | (k, item) :: rest => by
    rw [entriesOfMsgpack]
    refine (placed_key path t k).bind fun name _ => (ofMsgpack_placed _ ht item).bind fun v hv => ?_
    exact (entriesOfMsgpack_placed path t elem ht rest).bind fun es hes => .ok (List.forall_mem_cons.2 ⟨hv, hes⟩)

theorem attributesOfMsgpack_placed (path : Path) (t : Ty) {attrs : List (String × Ty)}
    (hattrs : ∀ a ∈ attrs, a.2.Canonical) : ∀ pairs : List (Msgpack × Msgpack),
      Placed (attributesOfMsgpack path t attrs pairs)
        fun es => ∀ e ∈ es, Table.find? e.1 attrs = some e.2.ty ∧ e.2.WellFormed
  | []                => by
    rw [attributesOfMsgpack]
    exact .ok (List.forall_mem_nil _)
  | (k, item) :: rest => by
    rw [attributesOfMsgpack]
    refine (placed_key path t k).bind fun name _ => ?_
    split
    · exact .error rfl
    · rename_i u hu
      have htype : u.Canonical := hattrs _ (Table.mem_of_find? hu)
      refine (ofMsgpack_placed _ htype item).bind fun v hv => ?_
      have hfirst : Table.find? name attrs = some v.ty ∧ v.WellFormed := ⟨by rw [hu, hv.1], hv.2⟩
      exact (attributesOfMsgpack_placed path t hattrs rest).bind fun es hes =>
        .ok (List.forall_mem_cons.2 ⟨hfirst, hes⟩)

end

end Value

end ProviderProtocol
