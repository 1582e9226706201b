import ProviderProtocol.Table
/-!
# Tables

An ascending table is determined by what a look-up finds in it: an entry is found under its name (`find?_of_mem`), what
is found is an entry (`mem_of_find?`), and bringing the table into order changes nothing (`ofList_of_ascending`).

A table in the order of insertion has its names once each, and that is kept by putting definitions into it
(`nodup_names_putAll`); definitions with names of their own make up a table as they are (`putAll_of_nodup`).  Of
several with one name both kinds of tables have the last (`find?_ofList`, `find?_putAll`).
-/
namespace ProviderProtocol.Table

instance (t : List (String × α)) : Decidable (Ascending t) :=
  inferInstanceAs (Decidable ((names t).Pairwise (· < ·)))

theorem ascending_cons {k : String} {a : α} {t : List (String × α)} :
    Ascending ((k, a) :: t) ↔ (∀ x ∈ names t, k < x) ∧ Ascending t := by
  unfold Ascending names
  rw [List.map_cons, List.pairwise_cons]

theorem mem_names {k : String} {a : α} {t : List (String × α)} (h : (k, a) ∈ t) : k ∈ names t :=
  List.mem_map.2 ⟨(k, a), h, rfl⟩

theorem names_map (f : String × α → β) (t : List (String × α)) : names (t.map fun e => (e.1, f e)) = names t := by
  unfold names
  rw [List.map_map]
  rfl

/-- A table is made of its names and what stands under them. -/
theorem eq_of_names_eq {t u : List (String × α)} (hnames : names t = names u) (h : t.map Prod.snd = u.map Prod.snd) :
    t = u := by
  unfold names at hnames
  rw [← List.zip_unzip t, ← List.zip_unzip u, List.unzip_eq_map, List.unzip_eq_map, hnames, h]

theorem length_names (t : List (String × α)) : (names t).length = t.length := List.length_map _

theorem names_zip {ks : List String} {xs : List α} (h : ks.length = xs.length) : names (ks.zip xs) = ks :=
  List.map_fst_zip (Nat.le_of_eq h)

theorem names_nodup {t : List (String × α)} (h : Ascending t) : (names t).Nodup := by
  refine List.Pairwise.imp ?_ h
  rintro a b hlt rfl
  exact String.lt_irrefl _ hlt

/-- Only the names decide whether a table is ascending. -/
theorem ascending_of_names_eq {t : List (String × α)} {u : List (String × β)} (h : names t = names u)
    (ht : Ascending t) : Ascending u := by
  unfold Ascending at ht ⊢
  rw [← h]
  exact ht

/-! ## Look-up -/

theorem find?_of_mem {k : String} {a : α} : ∀ {t : List (String × α)}, Ascending t → (k, a) ∈ t →
    find? k t = some a
  | [], _, hm          => by cases hm
  | (j, b) :: t, h, hm => by
    obtain ⟨hlt, ht⟩ := ascending_cons.1 h
    rcases List.mem_cons.1 hm with he | hm
    · cases he
      exact if_pos rfl
    · have hne : j ≠ k := fun he => String.lt_irrefl k (he ▸ hlt k (mem_names hm))
      rw [find?, if_neg hne]
      exact find?_of_mem ht hm

theorem mem_of_find? {k : String} {a : α} : ∀ {t : List (String × α)}, find? k t = some a → (k, a) ∈ t
  | [], h          => by cases h
  | (j, b) :: t, h => by
    rw [find?] at h
    split at h
    · rename_i hj
      cases h; subst hj
      exact List.mem_cons_self
    · exact List.mem_cons_of_mem _ (mem_of_find? h)

theorem find?_eq_none_iff {k : String} : ∀ {t : List (String × α)}, find? k t = none ↔ k ∉ names t
  | []          => by simp [names]
  | (j, b) :: t => by
    rw [find?]
    split
    · rename_i hj
      subst hj; simp [names]
    · rename_i hj
      rw [find?_eq_none_iff]
      simp [names, Ne.symm hj]

theorem has_iff {k : String} {t : List (String × α)} : has k t = true ↔ k ∈ names t := by
  unfold has
  cases h : find? k t with
  | none   => simpa using find?_eq_none_iff.1 h
  | some a => simpa using mem_names (mem_of_find? h)

theorem find?_map (f : String × α → β) (k : String) : ∀ t : List (String × α),
    find? k (t.map fun e => (e.1, f e)) = (find? k t).map fun a => f (k, a)
  | []          => rfl
  | (j, b) :: t => by
    rw [List.map_cons, find?, find?]
    split
    · rename_i hj
      subst hj; rfl
    · exact find?_map f k t

/-! ## Erasing -/

theorem erase_sublist (k : String) : ∀ t : List (String × α), (erase k t).Sublist t
  | []          => List.Sublist.slnil
  | (j, b) :: t => by
    rw [erase]
    split
    · exact List.sublist_cons_self _ t
    · exact (erase_sublist k t).cons_cons (j, b)

theorem erase_ascending {t : List (String × α)} (h : Ascending t) (k : String) : Ascending (erase k t) :=
  h.sublist ((erase_sublist k t).map Prod.fst)

theorem find?_erase {t : List (String × α)} (h : Ascending t) (name key : String) :
    find? key (erase name t) = if name = key then none else find? key t := by
  induction t with
  | nil => simp [erase]
  | cons e t ih =>
    obtain ⟨k, b⟩ := e
    obtain ⟨hlt, ht⟩ := ascending_cons.1 h
    rw [erase, find?]
    by_cases hk : k = name
    · subst hk
      rw [if_pos rfl]
      by_cases hkey : k = key
      · subst hkey
        rw [if_pos rfl]
        exact find?_eq_none_of_lt hlt
      · rw [if_neg hkey, if_neg hkey]
    · rw [if_neg hk, find?, ih ht]
      by_cases hkey : k = key
      · subst hkey
        rw [if_pos rfl, if_pos rfl, if_neg (Ne.symm hk)]
      · rw [if_neg hkey, if_neg hkey]

/-! ## Order -/

theorem nodup {t : List (String × α)} (h : Ascending t) : t.Nodup := by
  refine (List.pairwise_map.1 h).imp ?_
  rintro a b hlt rfl
  exact String.lt_irrefl _ hlt

theorem eq_of_mem_iff {t u : List (String × α)} (ht : Ascending t) (hu : Ascending u) (h : ∀ e, e ∈ t ↔ e ∈ u) :
    t = u := by
  have hp : t.Perm u := (List.perm_ext_iff_of_nodup (nodup ht) (nodup hu)).2 h
  refine List.Perm.eq_of_pairwise ?_ (List.pairwise_map.1 ht) (List.pairwise_map.1 hu) hp
  intro a b _ _ hab hba
  exact absurd hba (String.lt_asymm hab)

/-- Two tables of one size have the same names if the names of one are among those of the other. -/
theorem names_eq_of_subset {t : List (String × α)} {u : List (String × β)} (ht : Ascending t) (hu : Ascending u)
    (hlen : t.length = u.length) (h : names t ⊆ names u) : names t = names u := by
  have hback : ∀ k ∈ names u, k ∈ names t := by
    intro k hk
    by_cases hm : k ∈ names t
    · exact hm
    · -- one more name than `u` has would have to fit into it
      have hnodup : (k :: names t).Nodup := List.nodup_cons.2 ⟨hm, names_nodup ht⟩
      have hle := hnodup.length_le_of_subset (List.cons_subset.2 ⟨hk, h⟩)
      unfold names at hle
      rw [List.length_cons, List.length_map, List.length_map] at hle
      omega
  have hp : (names t).Perm (names u) :=
    (List.perm_ext_iff_of_nodup (names_nodup ht) (names_nodup hu)).2 fun k => ⟨fun hk => h hk, hback k⟩
  refine List.Perm.eq_of_pairwise ?_ ht hu hp
  intro a b _ _ hab hba
  exact absurd hba (String.lt_asymm hab)

section

variable {R : α → β → Prop} {t : List (String × α)} {u : List (String × β)}

/-- Two tables of one size have the same names if each entry of one finds its counterpart in the other. -/
theorem names_eq_of_found (ht : Ascending t) (hu : Ascending u) (hlen : t.length = u.length)
    (h : ∀ e ∈ t, ∃ b, find? e.1 u = some b ∧ R e.2 b) : names t = names u := by
  refine names_eq_of_subset ht hu hlen fun k hk => ?_
  obtain ⟨e, hmem, rfl⟩ := List.mem_map.1 hk
  obtain ⟨b, hb, _⟩ := h e hmem
  exact mem_names (mem_of_find? hb)

/-- If the names are the same, each entry of the other table is such a counterpart. -/
theorem exists_mem_of_found (hu : Ascending u) (hnames : names t = names u)
    (h : ∀ e ∈ t, ∃ b, find? e.1 u = some b ∧ R e.2 b) {k : String} {b : β} (hb : (k, b) ∈ u) :
    ∃ a, (k, a) ∈ t ∧ R a b := by
  have hk : k ∈ names t := hnames ▸ mem_names hb
  obtain ⟨⟨j, a⟩, hmem, rfl⟩ := List.mem_map.1 hk
  obtain ⟨b', hb', hR⟩ := h (j, a) hmem
  rw [find?_of_mem hu hb] at hb'
  cases hb'
  exact ⟨a, hmem, hR⟩

end

theorem insertNew_of_lt {k : String} {a : α} {t : List (String × α)} (h : ∀ x ∈ names t, k < x) :
    insertNew k a t = (k, a) :: t := by
  cases t with
  | nil      => rfl
  | cons e t => exact if_pos (h e.1 (mem_names List.mem_cons_self))

theorem ofList_of_ascending : ∀ {t : List (String × α)}, Ascending t → ofList t = t
  | [], _          => rfl
  | (k, a) :: t, h => by
    obtain ⟨hlt, ht⟩ := ascending_cons.1 h
    rw [ofList, ofList_of_ascending ht, insertNew_of_lt hlt]

/-! ## Inserting -/

theorem mem_of_mem_insert {k : String} {a : α} {e : String × α} : ∀ {t : List (String × α)}, e ∈ insert k a t →
    e = (k, a) ∨ e ∈ t
  | [], h          => .inl (List.mem_singleton.1 h)
  | (j, b) :: t, h => by
    rw [insert] at h
    split at h
    · exact List.mem_cons.1 h
    · split at h
      · exact (List.mem_cons.1 h).imp_right (List.mem_cons_of_mem _)
      · rcases List.mem_cons.1 h with rfl | h
        · exact .inr List.mem_cons_self
        · exact (mem_of_mem_insert h).imp_right (List.mem_cons_of_mem _)

theorem mem_of_mem_insertNew {k : String} {a : α} {e : String × α} : ∀ {t : List (String × α)}, e ∈ insertNew k a t →
    e = (k, a) ∨ e ∈ t
  | [], h          => .inl (List.mem_singleton.1 h)
  | (j, b) :: t, h => by
    rw [insertNew] at h
    split at h
    · exact List.mem_cons.1 h
    · split at h
      · exact .inr h
      · rcases List.mem_cons.1 h with rfl | h
        · exact .inr List.mem_cons_self
        · exact (mem_of_mem_insertNew h).imp_right (List.mem_cons_of_mem _)

theorem mem_of_mem_ofList {e : String × α} : ∀ {t : List (String × α)}, e ∈ ofList t → e ∈ t
  | [], h     => h
  | _ :: t, h => by
    rcases mem_of_mem_insertNew h with rfl | h
    · exact List.mem_cons_self
    · exact List.mem_cons_of_mem _ (mem_of_mem_ofList h)

theorem length_ofList_le (t : List (String × α)) : (ofList t).length ≤ t.length :=
  (nodup (ofList_ascending t)).length_le_of_subset fun _ h => mem_of_mem_ofList h

theorem map_insert (f : String × α → β) (k : String) (a : α) : ∀ t : List (String × α),
    (insert k a t).map (fun e => (e.1, f e)) = insert k (f (k, a)) (t.map fun e => (e.1, f e))
  | []          => rfl
  | (j, b) :: t => by
    rw [List.map_cons, insert, insert]
    split
    · rfl
    · split
      · rfl
      · rw [List.map_cons, map_insert f k a t]

/-- What is there already can be inserted again. -/
theorem insert_of_find? {k : String} {a : α} : ∀ {t : List (String × α)}, Ascending t → find? k t = some a →
    insert k a t = t
  | [], _, h          => by cases h
  | (j, b) :: t, h, hf => by
    obtain ⟨hlt, ht⟩ := ascending_cons.1 h
    rw [find?] at hf
    by_cases hj : j = k
    · subst hj
      rw [if_pos rfl] at hf
      cases hf
      rw [insert, if_neg (String.lt_irrefl j), if_pos rfl]
    · rw [if_neg hj] at hf
      have hafter : j < k := hlt k (mem_names (mem_of_find? hf))
      rw [insert, if_neg (String.lt_asymm hafter), if_neg hj, insert_of_find? ht hf]

/-! ## Tables in order of insertion

Here the names are distinct rather than ascending. -/

theorem mem_of_mem_put {k : String} {a : α} {e : String × α} : ∀ {t : List (String × α)}, e ∈ put k a t →
    e = (k, a) ∨ e ∈ t
  | [], h          => .inl (List.mem_singleton.1 h)
  | (j, b) :: t, h => by
    rw [put] at h
    split at h
    · rename_i hj
      subst hj
      exact (List.mem_cons.1 h).imp_right (List.mem_cons_of_mem _)
    · rcases List.mem_cons.1 h with rfl | h
      · exact .inr List.mem_cons_self
      · exact (mem_of_mem_put h).imp_right (List.mem_cons_of_mem _)

theorem put_of_not_mem {k : String} (a : α) : ∀ {t : List (String × α)}, k ∉ names t → put k a t = t ++ [(k, a)]
  | [], _          => rfl
  | (j, b) :: t, h => by
    obtain ⟨hj, ht⟩ := not_or.1 (mt List.mem_cons.2 h)
    rw [put, if_neg (Ne.symm hj), put_of_not_mem a ht, List.cons_append]

theorem names_put_of_mem {k : String} (a : α) : ∀ {t : List (String × α)}, k ∈ names t → names (put k a t) = names t
  | [], h          => by cases h
  | (j, b) :: t, h => by
    rw [put]
    split
    · rfl
    · rename_i hj
      have ht : k ∈ names t := (List.mem_cons.1 h).resolve_left (Ne.symm hj)
      exact congrArg (j :: ·) (names_put_of_mem a ht)

theorem nodup_names_put (k : String) (a : α) {t : List (String × α)} (h : (names t).Nodup) :
    (names (put k a t)).Nodup := by
  by_cases hk : k ∈ names t
  · rw [names_put_of_mem a hk]
    exact h
  · rw [put_of_not_mem a hk, names, List.map_append]
    refine List.nodup_append.2 ⟨h, by simp, ?_⟩
    rintro x hx y hy rfl
    rw [List.mem_singleton.1 hy] at hx
    exact hk hx

theorem find?_ofList_append (k : String) : ∀ t u : List (String × α),
    find? k (ofList (t ++ u)) = (find? k (ofList u)).or (find? k (ofList t))
  | [], _          => Option.or_none.symm
  | (j, b) :: t, u => by
    rw [List.cons_append, find?_ofList_cons, find?_ofList_append k t u, Option.or_assoc, ← find?_ofList_cons]

theorem find?_ofList_of_nodup (k : String) : ∀ {t : List (String × α)}, (names t).Nodup →
    find? k (ofList t) = find? k t
  | [], _          => rfl
  | (j, b) :: t, h => by
    obtain ⟨hj, ht⟩ := List.nodup_cons.1 h
    rw [find?_ofList_cons, find?_ofList_of_nodup k ht, find?]
    split
    · rename_i hk
      rw [find?_eq_none_iff.2 (hk ▸ hj)]
      rfl
    · exact Option.or_none

/-- The table of definitions that are put one after the other. -/
def putAll (t : List (String × α)) (definitions : List (String × α)) : List (String × α) :=
  definitions.foldl (fun t e => put e.1 e.2 t) t

theorem mem_of_mem_putAll {e : String × α} : ∀ {definitions t : List (String × α)}, e ∈ putAll t definitions →
    e ∈ t ∨ e ∈ definitions
  | [], _, h          => .inl h
  | (k, a) :: ds, t, h => by
    have hput : e ∈ putAll (put k a t) ds := h
    rcases mem_of_mem_putAll hput with h | h
    · rcases mem_of_mem_put h with rfl | h
      · exact .inr List.mem_cons_self
      · exact .inl h
    · exact .inr (List.mem_cons_of_mem _ h)

theorem nodup_names_putAll : ∀ (definitions : List (String × α)) {t : List (String × α)}, (names t).Nodup →
    (names (putAll t definitions)).Nodup
  | [], _, h           => h
  | (k, a) :: ds, _, h => nodup_names_putAll ds (nodup_names_put k a h)

/-- Definitions with distinct names make a table as they are. -/
theorem putAll_of_nodup : ∀ {definitions t : List (String × α)}, (names (t ++ definitions)).Nodup →
    putAll t definitions = t ++ definitions
  | [], t, _          => (List.append_nil t).symm
  | (k, a) :: ds, t, h => by
    have hk : k ∉ names t := by
      rw [names, List.map_append] at h
      intro hk
      exact (List.nodup_append.1 h).2.2 k hk k List.mem_cons_self rfl
    show putAll (put k a t) ds = t ++ (k, a) :: ds
    rw [put_of_not_mem a hk, putAll_of_nodup (t := t ++ [(k, a)]), List.append_assoc]
    · rfl
    · rw [List.append_assoc]
      exact h

/-! ## The last of several -/

/-- The last of the entries with this key. -/
def last? [DecidableEq κ] (key : κ) : List (κ × α) → Option α
  | []             => none
  | (k, a) :: rest => (last? key rest).or (if k = key then some a else none)

theorem last?_map [DecidableEq κ] (key : κ) (f : α → β) : ∀ t : List (κ × α),
    last? key (t.map fun e => (e.1, f e.2)) = (last? key t).map f
  | []          => rfl
  | (k, a) :: t => by
    rw [List.map_cons, last?, last?, last?_map key f t]
    cases last? key t with
    | some b => rfl
    | none   => split <;> rfl

/-- An ascending table has the last of the entries that it is made of. -/
theorem find?_ofList (k : String) : ∀ t : List (String × α), find? k (ofList t) = last? k t
  | []          => rfl
  | (j, a) :: t => by rw [find?_ofList_cons, find?_ofList k t, last?]

theorem mem_of_last? {k : String} {a : α} {t : List (String × α)} (h : last? k t = some a) : (k, a) ∈ t :=
  mem_of_mem_ofList (mem_of_find? ((find?_ofList k t).trans h))

/-- So does a table in the order of insertion. -/
theorem find?_putAll (k : String) : ∀ definitions t : List (String × α),
    find? k (putAll t definitions) = (last? k definitions).or (find? k t)
  | [], _           => rfl
  | (j, a) :: ds, t => by
    show find? k (putAll (put j a t) ds) = _
    rw [find?_putAll k ds, find?_put, last?, Option.or_assoc]
    split <;> rfl

/-- Its names stand in the order of their first definitions. -/
theorem names_putAll : ∀ definitions t : List (String × α),
    names (putAll t definitions) = names t ++ ((names definitions).filter (· ∉ names t)).eraseDups
  | [], t           => (List.append_nil _).symm
  | (j, a) :: ds, t => by
    show names (putAll (put j a t) ds) = names t ++ ((j :: names ds).filter (· ∉ names t)).eraseDups
    rw [names_putAll ds]
    by_cases hj : j ∈ names t
    · rw [names_put_of_mem a hj, List.filter_cons_of_neg (by simpa using hj)]
    · have hput : names (put j a t) = names t ++ [j] := by
        rw [put_of_not_mem a hj, names, List.map_append]
        rfl
      have hfilter : (names ds).filter (fun x => decide (x ∉ names t ++ [j])) =
          (names ds).filter (fun x => !x == j && decide (x ∉ names t)) := by
        refine List.filter_congr fun x _ => ?_
        by_cases hx : x = j <;> simp [hx]
      rw [hput, List.filter_cons_of_pos (by simpa using hj), List.eraseDups_cons, List.filter_filter,
        List.append_assoc, hfilter]
      rfl

/-! ## Some of the entries -/

/-- The entries for which there is something, with that instead. -/
def choose (f : α → Option β) (t : List (String × α)) : List (String × β) := t.filterMap fun e => (f e.2).map (e.1, ·)

theorem choose_cons (f : α → Option β) (e : String × α) (t : List (String × α)) :
    choose f (e :: t) = match f e.2 with
      | some b => (e.1, b) :: choose f t
      | none   => choose f t := by
  rw [choose, List.filterMap_cons]
  cases f e.2 with
  | none   => rfl
  | some b => rfl

theorem names_choose (f : α → Option β) : ∀ t : List (String × α),
    names (choose f t) = names (t.filter fun e => (f e.2).isSome)
  | []     => rfl
  | e :: t => by
    rw [choose_cons, List.filter_cons]
    cases f e.2 with
    | none   => exact names_choose f t
    | some b => exact congrArg (e.1 :: ·) (names_choose f t)

theorem find?_choose (f : α → Option β) (k : String) : ∀ {t : List (String × α)}, (names t).Nodup →
    find? k (choose f t) = (find? k t).bind f
  | [], _          => rfl
  | (j, a) :: t, h => by
    obtain ⟨hj, ht⟩ := List.nodup_cons.1 h
    have hrest : find? k (choose f t) = (find? k t).bind f := find?_choose f k ht
    rw [choose_cons]
    by_cases hk : j = k
    · subst hk
      rw [find?, if_pos rfl]
      cases hb : f a with
      | none   =>
        -- a name that has nothing is not found further down
        rw [find?_eq_none_iff.2 hj] at hrest
        exact hrest.trans hb.symm
      | some b => exact (if_pos rfl).trans hb.symm
    · rw [find?, if_neg hk]
      cases f a with
      | none   => exact hrest
      | some b => exact (if_neg hk).trans hrest

end ProviderProtocol.Table
