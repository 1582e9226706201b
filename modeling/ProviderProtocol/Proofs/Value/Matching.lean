import Mathlib.Data.List.Perm.Basic
import ProviderProtocol.Value.Equality
/-!
# Matching one list with another

`matched` is the comparison of two sets with any test in the place of `Value.equal` (`Content.itemsMatched_eq`): each
item of the first list in turn takes the first item of the second that it accepts and that is still there.

Since everybody takes what comes first, the items of the second list may as well choose among those of the first: the
same pairs result, in whatever way the test relates them (`matched_swap`).  The order of a list does matter.  No order
succeeds unless the lists can be paired off at all (`Paired`).  If they can, then every order succeeds exactly if any
two items that accept one item in common accept the same items (`InBlocks`): `matched_of_paired` and
`inBlocks_of_matched`.
-/
namespace ProviderProtocol

/-! ## Taking the first -/

theorem removeFirst?_cons_of_pos {p : α → Bool} {y : α} (h : p y = true) (ys : List α) :
    removeFirst? p (y :: ys) = some ys := if_pos h

theorem removeFirst?_cons_of_neg {p : α → Bool} {y : α} (h : p y = false) (ys : List α) :
    removeFirst? p (y :: ys) = (removeFirst? p ys).map (y :: ·) := if_neg (Bool.eq_false_iff.1 h)

theorem removeFirst?_perm {p : α → Bool} : ∀ {ys zs : List α}, removeFirst? p ys = some zs →
    ∃ y, p y = true ∧ (y :: zs).Perm ys
  | [], _, h       => by cases h
  | y :: ys, zs, h => by
    rw [removeFirst?] at h
    split at h
    · rename_i hy
      cases h
      exact ⟨y, hy, .refl _⟩
    · obtain ⟨ws, hws, rfl⟩ := Option.map_eq_some_iff.1 h
      obtain ⟨x, hx, hp⟩ := removeFirst?_perm hws
      exact ⟨x, hx, (List.Perm.swap y x ws).trans (hp.cons y)⟩

theorem removeFirst?_ne_none {p : α → Bool} {y : α} (h : p y = true) : ∀ {ys : List α}, y ∈ ys →
    removeFirst? p ys ≠ none
  | z :: ys, hy => by
    cases hz : p z with
    | true  => simp [removeFirst?_cons_of_pos hz]
    | false =>
      have hys : y ∈ ys := (List.mem_cons.1 hy).resolve_left fun he => by rw [he, hz] at h; cases h
      rw [removeFirst?_cons_of_neg hz, Ne, Option.map_eq_none_iff]
      exact removeFirst?_ne_none h hys

theorem removeFirst?_append {p : α → Bool} {zs : List α} (ws : List α) : ∀ {ys : List α},
    removeFirst? p ys = some zs → removeFirst? p (ys ++ ws) = some (zs ++ ws)
  | y :: ys, h => by
    cases hy : p y with
    | true  =>
      rw [removeFirst?_cons_of_pos hy] at h
      cases h
      exact removeFirst?_cons_of_pos hy _
    | false =>
      rw [removeFirst?_cons_of_neg hy] at h
      obtain ⟨us, hus, rfl⟩ := Option.map_eq_some_iff.1 h
      rw [List.cons_append, removeFirst?_cons_of_neg hy, removeFirst?_append ws hus]
      rfl

theorem removeFirst?_congr {p q : α → Bool} : ∀ {ys : List α}, (∀ y ∈ ys, p y = q y) →
    removeFirst? p ys = removeFirst? q ys
  | [], _      => rfl
  | y :: ys, h => by
    obtain ⟨hy, hys⟩ := List.forall_mem_cons.1 h
    rw [removeFirst?, removeFirst?, hy, removeFirst?_congr hys]

/-! ## Greedy matching -/

/-- Each item of the first list takes the first item of the second that it accepts and that is left. -/
def matched (accepts : α → β → Bool) : List α → List β → Bool
  | [], _       => true
  | x :: xs, ys =>
    match removeFirst? (accepts x) ys with
    | some rest => matched accepts xs rest
    | none      => false

theorem Content.itemsMatched_eq : ∀ xs ys : List Value, itemsMatched xs ys = matched Value.equal xs ys
  | [], _       => by rw [itemsMatched, matched]
  | x :: xs, ys => by
    rw [itemsMatched, matched]
    cases removeFirst? (fun y => x.equal y) ys with
    | none      => rfl
    | some rest => exact itemsMatched_eq xs rest

section

variable {p q : α → β → Bool}

theorem matched_cons_of_some {x : α} {xs : List α} {ys rest : List β} (h : removeFirst? (p x) ys = some rest) :
    matched p (x :: xs) ys = matched p xs rest := by rw [matched, h]

theorem matched_cons_of_none {x : α} {xs : List α} {ys : List β} (h : removeFirst? (p x) ys = none) :
    matched p (x :: xs) ys = false := by rw [matched, h]

theorem matched_congr : ∀ {xs : List α} {ys : List β}, (∀ x ∈ xs, ∀ y ∈ ys, p x y = q x y) →
    matched p xs ys = matched q xs ys
  | [], _, _       => rfl
  | x :: xs, ys, h => by
    obtain ⟨hx, hxs⟩ := List.forall_mem_cons.1 h
    rw [matched, matched, removeFirst?_congr hx]
    cases hr : removeFirst? (q x) ys with
    | none      => rfl
    | some rest =>
      obtain ⟨_, _, hperm⟩ := removeFirst?_perm hr
      exact matched_congr fun x' hx' y hy => hxs x' hx' y (hperm.subset (List.mem_cons_of_mem _ hy))

theorem length_le_of_matched : ∀ {xs : List α} {ys : List β}, matched p xs ys = true → xs.length ≤ ys.length
  | [], _, _       => Nat.zero_le _
  | x :: xs, ys, h => by
    cases hr : removeFirst? (p x) ys with
    | none      => rw [matched_cons_of_none hr] at h; cases h
    | some rest =>
      rw [matched_cons_of_some hr] at h
      obtain ⟨_, _, hperm⟩ := removeFirst?_perm hr
      rw [← hperm.length_eq]
      exact Nat.succ_le_succ (length_le_of_matched h)

/-- Lists that pair off as they stand are matched. -/
theorem matched_of_forall₂ : ∀ {xs : List α} {ys : List β}, List.Forall₂ (fun x y => p x y = true) xs ys →
    matched p xs ys = true
  | _, _, .nil       => rfl
  | _, _, .cons h hs => by
    rw [matched_cons_of_some (removeFirst?_cons_of_pos h _)]
    exact matched_of_forall₂ hs

/-- What is matched does not get in the way of what stands behind it. -/
theorem matched_append {us : List α} {vs : List β} : ∀ {xs : List α} {ys : List β}, xs.length = ys.length →
    matched p xs ys = true → matched p (xs ++ us) (ys ++ vs) = matched p us vs
  | [], ys, hlen, _      => by rw [List.eq_nil_of_length_eq_zero hlen.symm]; rfl
  | x :: xs, ys, hlen, h => by
    cases hr : removeFirst? (p x) ys with
    | none      => rw [matched_cons_of_none hr] at h; cases h
    | some rest =>
      rw [matched_cons_of_some hr] at h
      obtain ⟨_, _, hperm⟩ := removeFirst?_perm hr
      have hrest : xs.length = rest.length := Nat.succ.inj (hlen.trans hperm.length_eq.symm)
      rw [List.cons_append, matched_cons_of_some (removeFirst?_append vs hr)]
      exact matched_append hrest h

/-! ## Either side may choose -/

/-- The first item of the second list goes to the first item of the first list that accepts it. -/
theorem matched_cons_right (y : β) : ∀ (xs : List α) (ys : List β), matched p xs (y :: ys) =
    match removeFirst? (fun x => p x y) xs with
    | some rest => matched p rest ys
    | none      => matched p xs ys
  | [], _       => rfl
  | x :: xs, ys => by
    cases hxy : p x y with
    | true  =>
      rw [matched_cons_of_some (removeFirst?_cons_of_pos hxy ys),
        removeFirst?_cons_of_pos (p := fun x => p x y) hxy xs]
    | false =>
      -- `x` leaves `y` where it is, so both sides come to what is left when `x` has chosen from `ys`.
      rw [removeFirst?_cons_of_neg (p := fun x => p x y) hxy xs, matched, removeFirst?_cons_of_neg hxy ys]
      cases hr : removeFirst? (p x) ys with
      | none      => cases removeFirst? (fun x => p x y) xs <;> simp [matched_cons_of_none hr]
      | some zs   =>
        have ih := matched_cons_right y xs zs
        cases hx : removeFirst? (fun x => p x y) xs <;>
          simpa [hx, matched_cons_of_some hr] using ih

/-- **It does not matter which list chooses from which**: the pairs are the same. -/
theorem matched_swap : ∀ {xs : List α} {ys : List β}, xs.length = ys.length →
    matched p xs ys = matched (fun y x => p x y) ys xs
  | xs, [], hlen      => by rw [List.eq_nil_of_length_eq_zero hlen]; rfl
  | xs, y :: ys, hlen => by
    rw [matched_cons_right]
    cases hr : removeFirst? (fun x => p x y) xs with
    | some rest =>
      obtain ⟨_, _, hperm⟩ := removeFirst?_perm hr
      rw [matched_cons_of_some (p := fun y x => p x y) hr]
      exact matched_swap (Nat.succ.inj (hperm.length_eq.trans hlen))
    | none =>
      -- Nobody takes `y`, and what is left is too short for `xs`.
      rw [matched_cons_of_none (p := fun y x => p x y) hr, Bool.eq_false_iff]
      intro h
      have := length_le_of_matched h
      rw [List.length_cons] at hlen
      omega

end

/-! ## Lists that can be paired off -/

/-- The second list can be put into an order in which the lists pair off item by item. -/
def Paired (R : α → β → Prop) (xs : List α) (ys : List β) : Prop := ∃ zs, zs.Perm ys ∧ List.Forall₂ R xs zs

/-- Two items that accept one item in common accept the same items. -/
def InBlocks (R : α → β → Prop) (xs : List α) (ys : List β) : Prop :=
  ∀ x ∈ xs, ∀ x' ∈ xs, ∀ y ∈ ys, ∀ y' ∈ ys, R x y → R x' y → R x' y' → R x y'

section

variable {R : α → β → Prop}

theorem Paired.length_eq {xs : List α} {ys : List β} (h : Paired R xs ys) : xs.length = ys.length := by
  obtain ⟨zs, hperm, hall⟩ := h
  rw [hall.length_eq, hperm.length_eq]

theorem Paired.perm {xs xs' : List α} {ys ys' : List β} (h : Paired R xs ys) (hx : xs'.Perm xs) (hy : ys'.Perm ys) :
    Paired R xs' ys' := by
  obtain ⟨zs, hperm, hall⟩ := h
  obtain ⟨ws, hws, hwz⟩ := List.perm_comp_forall₂ hx hall
  exact ⟨ws, hwz.trans (hperm.trans hy.symm), hws⟩

theorem InBlocks.perm {xs xs' : List α} {ys ys' : List β} (h : InBlocks R xs ys) (hx : xs'.Perm xs)
    (hy : ys'.Perm ys) : InBlocks R xs' ys' := fun a ha b hb c hc d hd =>
  h a (hx.subset ha) b (hx.subset hb) c (hy.subset hc) d (hy.subset hd)

/-- Whoever is paired with `y` may be paired with `z` instead, if they accept it. -/
theorem forall₂_replace {y z : β} {ts : List β} : ∀ {ss : List β} {xs : List α}, (∀ x ∈ xs, R x y → R x z) →
    List.Forall₂ R xs (ss ++ y :: ts) → List.Forall₂ R xs (ss ++ z :: ts)
  | [], _, hR, .cons h hs     => .cons (hR _ List.mem_cons_self h) hs
  | _ :: _, _, hR, .cons h hs => .cons h (forall₂_replace (fun x hx => hR x (List.mem_cons_of_mem _ hx)) hs)

end

theorem paired_of_matched {p : α → β → Bool} : ∀ {xs : List α} {ys : List β}, xs.length = ys.length →
    matched p xs ys = true → Paired (fun x y => p x y = true) xs ys
  | [], ys, hlen, _      => ⟨[], by rw [List.eq_nil_of_length_eq_zero hlen.symm], .nil⟩
  | x :: xs, ys, hlen, h => by
    cases hr : removeFirst? (p x) ys with
    | none      => rw [matched_cons_of_none hr] at h; cases h
    | some rest =>
      rw [matched_cons_of_some hr] at h
      obtain ⟨y, hy, hperm⟩ := removeFirst?_perm hr
      obtain ⟨zs, hzs, hall⟩ := paired_of_matched (Nat.succ.inj (hlen.trans hperm.length_eq.symm)) h
      exact ⟨y :: zs, (hzs.cons y).trans hperm, .cons hy hall⟩

/-- A greedy choice loses nothing in a block: whoever was to have `y` takes what `x` was to have. -/
theorem matched_of_paired {p : α → β → Bool} : ∀ {xs : List α} {ys : List β},
    InBlocks (fun x y => p x y = true) xs ys → Paired (fun x y => p x y = true) xs ys → matched p xs ys = true
  | [], _, _, _              => rfl
  | x :: xs, ys, hblocks, hp => by
    obtain ⟨_, hperm, hpairs⟩ := hp
    obtain ⟨z, zs, hxz, hall, rfl⟩ := List.forall₂_cons_left_iff.1 hpairs
    have hz : z ∈ ys := hperm.subset List.mem_cons_self
    obtain ⟨rest, hr⟩ := Option.ne_none_iff_exists'.1 (removeFirst?_ne_none hxz hz)
    obtain ⟨y, hxy, hrest⟩ := removeFirst?_perm hr
    have hy : y ∈ ys := hrest.subset List.mem_cons_self
    have hrestBlocks : InBlocks (fun x y => p x y = true) xs rest := fun a ha b hb c hc d hd =>
      hblocks a (List.mem_cons_of_mem _ ha) b (List.mem_cons_of_mem _ hb)
        c (hrest.subset (List.mem_cons_of_mem _ hc)) d (hrest.subset (List.mem_cons_of_mem _ hd))
    rw [matched_cons_of_some hr]
    refine matched_of_paired hrestBlocks ?_
    rcases List.mem_cons.1 ((hperm.trans hrest.symm).symm.subset List.mem_cons_self) with rfl | hys
    · exact ⟨zs, (hperm.trans hrest.symm).cons_inv, hall⟩
    · obtain ⟨ss, ts, rfl⟩ := List.append_of_mem hys
      refine ⟨ss ++ z :: ts, ?_, forall₂_replace (fun x' hx' h => ?_) hall⟩
      · have hmoved : (y :: (ss ++ z :: ts)).Perm (z :: (ss ++ y :: ts)) :=
          (List.perm_middle.cons y).trans ((List.Perm.swap z y _).trans (List.perm_middle.symm.cons z))
        exact (hmoved.trans (hperm.trans hrest.symm)).cons_inv
      · exact hblocks x' (List.mem_cons_of_mem _ hx') x List.mem_cons_self y hy z hz h hxy hxz

theorem exists_cons_perm {x : α} {xs : List α} (h : x ∈ xs) : ∃ rest, (x :: rest).Perm xs := by
  obtain ⟨ss, ts, rfl⟩ := List.append_of_mem h
  exact ⟨ss ++ ts, List.perm_middle.symm⟩

theorem exists_two_perm {x y : α} {xs : List α} (hx : x ∈ xs) (hy : y ∈ xs) (hne : x ≠ y) :
    ∃ rest, (x :: y :: rest).Perm xs := by
  obtain ⟨us, hus⟩ := exists_cons_perm hx
  obtain ⟨vs, hvs⟩ := exists_cons_perm ((List.mem_cons.1 (hus.symm.subset hy)).resolve_left hne.symm)
  exact ⟨vs, (hvs.cons x).trans hus⟩

/-- If every order succeeds, then items with one choice in common have all choices in common. -/
theorem inBlocks_of_matched {p : α → β → Bool} {xs : List α} {ys : List β} (hlen : xs.length = ys.length)
    (h : ∀ xs' ys', xs'.Perm xs → ys'.Perm ys → matched p xs' ys' = true) :
    InBlocks (fun x y => p x y = true) xs ys := by
  intro x hx x' hx' y hy y' hy' hxy hx'y hx'y'
  by_cases hxx : x = x'
  · rw [hxx]
    exact hx'y'
  by_cases hyy : y = y'
  · rw [← hyy]
    exact hxy
  obtain ⟨us, hus⟩ := exists_two_perm hx hx' hxx
  obtain ⟨vs, hvs⟩ := exists_two_perm hy hy' hyy
  have hrest : us.length = vs.length := by
    have := hus.length_eq.trans (hlen.trans hvs.length_eq.symm)
    simpa using this
  -- In this order `x` takes `y` and `x'` takes `y'`, so the others can be matched among themselves.
  have hothers : matched p us vs = true := by
    have := h _ _ hus hvs
    rwa [matched_cons_of_some (removeFirst?_cons_of_pos hxy _), matched_cons_of_some (removeFirst?_cons_of_pos hx'y' _)]
      at this
  -- In this order `x'` takes `y`, the others match as before, and `x` has to do with `y'`.
  have hus' : (x' :: (us ++ [x])).Perm xs :=
    ((List.perm_append_singleton x us).cons x').trans ((List.Perm.swap x x' us).trans hus)
  have hvs' : (y :: (vs ++ [y'])).Perm ys := ((List.perm_append_singleton y' vs).cons y).trans hvs
  have hlast := h _ _ hus' hvs'
  rw [matched_cons_of_some (removeFirst?_cons_of_pos hx'y _), matched_append hrest hothers] at hlast
  cases hxy' : p x y' with
  | true  => rfl
  | false => simp [matched, removeFirst?, hxy'] at hlast

end ProviderProtocol
