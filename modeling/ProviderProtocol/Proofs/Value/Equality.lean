import ProviderProtocol.Proofs.Number.Equality
import ProviderProtocol.Proofs.Pointwise
import ProviderProtocol.Proofs.Value.Matching
import ProviderProtocol.Proofs.Value.Shape
/-!
# What equal values have in common

Equal lists are equal item by item, and equal sets after one of them has been brought into another order
(`equal_list`); equal maps and objects have the same names and equal entries (`equal_map`).  It follows that equal
values have one type and are known throughout (`fullyKnown_of_equal`), and a value that is known throughout equals
whatever is identical to it (`equal_of_identical`).
-/
namespace ProviderProtocol

/-! ## Item by item -/

theorem Content.itemsEqual_iff : ∀ {xs ys : List Value},
    itemsEqual xs ys = true ↔ List.Forall₂ (fun x y => x.equal y = true) xs ys
  | [], []           => by simp [itemsEqual]
  | [], _ :: _       => by simp [itemsEqual]
  | _ :: _, []       => by simp [itemsEqual]
  | x :: xs, y :: ys => by rw [itemsEqual, Bool.and_eq_true, itemsEqual_iff, List.forall₂_cons]

theorem Content.entriesEqual_iff {ys : List (String × Value)} : ∀ {xs : List (String × Value)},
    entriesEqual xs ys = true ↔ ∀ e ∈ xs, ∃ y, Table.find? e.1 ys = some y ∧ e.2.equal y = true
  | []           => by simp [entriesEqual]
  | (k, x) :: xs => by
    rw [entriesEqual, List.forall_mem_cons]
    cases hf : Table.find? k ys with
    | none   => simp
    | some y =>
      dsimp only
      rw [Bool.and_eq_true, entriesEqual_iff]
      simp

theorem Content.equal_list {xs : List Value} {isSet : Bool} {c : Content} (h : (Content.list xs).equal isSet c = true) :
    ∃ ys, c = .list ys ∧
      ∃ zs, zs.Perm ys ∧ (isSet = false → zs = ys) ∧ List.Forall₂ (fun x z => x.equal z = true) xs zs := by
  cases c with
  | list ys =>
    cases isSet with
    | true =>
      obtain ⟨hlen, hm⟩ := Bool.and_eq_true_iff.1 h
      rw [itemsMatched_eq] at hm
      obtain ⟨zs, hp, hall⟩ := paired_of_matched (beq_iff_eq.1 hlen) hm
      exact ⟨ys, rfl, zs, hp, fun hf => (by cases hf), hall⟩
    | false => exact ⟨ys, rfl, ys, .refl ys, fun _ => rfl, Content.itemsEqual_iff.1 h⟩
  | string s => cases isSet <;> cases h
  | number n => cases isSet <;> cases h
  | bool b   => cases isSet <;> cases h
  | map es   => cases isSet <;> cases h

namespace Value

/-! ## Equal values, level by level -/

theorem equal_ty {a b : Value} (h : a.equal b = true) : a.ty = b.ty := by
  unfold equal at h
  split at h
  · exact beq_iff_eq.1 h
  · exact beq_iff_eq.1 (Bool.and_eq_true_iff.1 h).1
  · cases h

theorem equal_known {t : Ty} {c : Content} {v : Value} (h : (known t c).equal v = true) :
    ∃ d, v = known t d ∧ c.equal t.isSet d = true := by
  cases v with
  | null u    => cases h
  | unknown u => cases h
  | known u d =>
    obtain rfl : t = u := equal_ty h
    exact ⟨d, rfl, (Bool.and_eq_true_iff.1 h).2⟩

theorem equal_null {t : Ty} {v : Value} (h : (null t).equal v = true) : v = null t := by
  cases v with
  | null u    => rw [show t = u from equal_ty h]
  | unknown u => cases h
  | known u c => cases h

theorem equal_null_right {t : Ty} {v : Value} (h : v.equal (null t) = true) : v = null t := by
  cases v with
  | null u    => rw [show u = t from equal_ty h]
  | unknown u => cases h
  | known u c => cases h

theorem equal_list {t : Ty} {xs : List Value} {v : Value} (h : (known t (.list xs)).equal v = true) :
    ∃ ys, v = known t (.list ys) ∧
      ∃ zs, zs.Perm ys ∧ (t.isSet = false → zs = ys) ∧ List.Forall₂ (fun x z => x.equal z = true) xs zs := by
  obtain ⟨d, rfl, hd⟩ := equal_known h
  obtain ⟨ys, rfl, hys⟩ := Content.equal_list hd
  exact ⟨ys, rfl, hys⟩

theorem equal_map {t : Ty} {es : List (String × Value)} {v : Value} (h : (known t (.map es)).equal v = true)
    (he : Table.Ascending es) (hv : v.WellFormed) :
    ∃ fs, v = known t (.map fs) ∧ Table.names es = Table.names fs ∧
      ∀ e ∈ es, ∃ y, Table.find? e.1 fs = some y ∧ e.2.equal y = true := by
  obtain ⟨d, rfl, hd⟩ := equal_known h
  cases d with
  | map fs =>
    obtain ⟨hlen, hm⟩ := Bool.and_eq_true_iff.1 hd
    have hall := Content.entriesEqual_iff.1 hm
    exact ⟨fs, rfl, Table.names_eq_of_found (R := (equal · · = true)) he hv.ascending (beq_iff_eq.1 hlen) hall, hall⟩
  | string s => cases hd
  | number n => cases hd
  | bool b   => cases hd
  | list xs  => cases hd

theorem equal_list_right {t : Ty} {ys : List Value} {v : Value} (h : v.equal (known t (.list ys)) = true) :
    ∃ xs, v = known t (.list xs) := by
  cases v with
  | null u    => cases h
  | unknown u => cases h
  | known u c =>
    obtain rfl : u = t := equal_ty h
    cases c with
    | list xs  => exact ⟨xs, rfl⟩
    | string s => cases (Bool.and_eq_true_iff.1 h).2
    | number n => cases (Bool.and_eq_true_iff.1 h).2
    | bool b   => cases (Bool.and_eq_true_iff.1 h).2
    | map es   => cases (Bool.and_eq_true_iff.1 h).2

theorem equal_map_right {t : Ty} {fs : List (String × Value)} {v : Value} (h : v.equal (known t (.map fs)) = true) :
    ∃ es, v = known t (.map es) := by
  cases v with
  | null u    => cases h
  | unknown u => cases h
  | known u c =>
    obtain rfl : u = t := equal_ty h
    cases c with
    | map es   => exact ⟨es, rfl⟩
    | list xs  =>
      obtain ⟨_, he, _⟩ := equal_list h
      cases he
    | string s => cases (Bool.and_eq_true_iff.1 h).2
    | number n => cases (Bool.and_eq_true_iff.1 h).2
    | bool b   => cases (Bool.and_eq_true_iff.1 h).2

/-! ## Known throughout -/

theorem allFullyKnown_iff : ∀ {xs : List Value}, allFullyKnown xs = true ↔ ∀ x ∈ xs, x.fullyKnown = true
  | []      => by simp [allFullyKnown]
  | x :: xs => by rw [allFullyKnown, Bool.and_eq_true, allFullyKnown_iff, List.forall_mem_cons]

theorem entriesFullyKnown_iff : ∀ {es : List (String × Value)},
    entriesFullyKnown es = true ↔ ∀ e ∈ es, e.2.fullyKnown = true
  | []           => by simp [entriesFullyKnown]
  | (k, x) :: es => by rw [entriesFullyKnown, Bool.and_eq_true, entriesFullyKnown_iff, List.forall_mem_cons]

theorem fullyKnown_of_equal {a : Value} : ∀ {b : Value}, a.WellFormed → b.WellFormed → a.equal b = true →
    a.fullyKnown = true ∧ b.fullyKnown = true := by
  induction a using Value.node_induction with
  | null t =>
    intro b _ _ h
    obtain rfl := equal_null h
    exact ⟨rfl, rfl⟩
  | unknown t =>
    intro b _ _ h
    cases h
  | string t s =>
    intro b _ _ h
    obtain ⟨d, rfl, hd⟩ := equal_known h
    cases d <;> first | exact ⟨rfl, rfl⟩ | cases hd
  | number t n =>
    intro b _ _ h
    obtain ⟨d, rfl, hd⟩ := equal_known h
    cases d <;> first | exact ⟨rfl, rfl⟩ | cases hd
  | bool t b =>
    intro b _ _ h
    obtain ⟨d, rfl, hd⟩ := equal_known h
    cases d <;> first | exact ⟨rfl, rfl⟩ | cases hd
  | list t xs ih =>
    intro b ha hb h
    obtain ⟨ys, rfl, zs, hp, -, hall⟩ := equal_list h
    have hzs : ∀ z ∈ zs, z.WellFormed := fun z hz => hb.items z (hp.subset hz)
    refine ⟨allFullyKnown_iff.2 fun x hx => ?_, allFullyKnown_iff.2 fun y hy => ?_⟩
    · obtain ⟨z, hz, heq⟩ := exists_mem_right hall hx
      exact (ih x hx (ha.items x hx) (hzs z hz) heq).1
    · obtain ⟨x, hx, heq⟩ := exists_mem_left hall (hp.symm.subset hy)
      exact (ih x hx (ha.items x hx) (hb.items y hy) heq).2
  | map t es ih =>
    intro b ha hb h
    obtain ⟨fs, rfl, hnames, hall⟩ := equal_map h ha.ascending hb
    refine ⟨entriesFullyKnown_iff.2 fun e he => ?_, entriesFullyKnown_iff.2 fun f hf => ?_⟩
    · obtain ⟨y, hy, heq⟩ := hall e he
      exact (ih e he (ha.entries e he) (hb.entries _ (Table.mem_of_find? hy)) heq).1
    · obtain ⟨x, hx, heq⟩ := Table.exists_mem_of_found (R := (equal · · = true)) hb.ascending hnames hall hf
      exact (ih (f.1, x) hx (ha.entries _ hx) (hb.entries f hf) heq).2

/-! ## Identical values -/

theorem itemsIdentical_iff : ∀ {xs ys : List Value},
    Content.itemsIdentical xs ys = true ↔ List.Forall₂ (fun x y => x.identical y = true) xs ys
  | [], []           => by simp [Content.itemsIdentical]
  | [], _ :: _       => by simp [Content.itemsIdentical]
  | _ :: _, []       => by simp [Content.itemsIdentical]
  | x :: xs, y :: ys => by rw [Content.itemsIdentical, Bool.and_eq_true, itemsIdentical_iff, List.forall₂_cons]

theorem entriesIdentical_iff : ∀ {es fs : List (String × Value)},
    Content.entriesIdentical es fs = true ↔ List.Forall₂ (fun e f => e.1 = f.1 ∧ e.2.identical f.2 = true) es fs
  | [], []                     => by simp [Content.entriesIdentical]
  | [], _ :: _                 => by simp [Content.entriesIdentical]
  | _ :: _, []                 => by simp [Content.entriesIdentical]
  | (j, x) :: es, (k, y) :: fs => by
    rw [Content.entriesIdentical, Bool.and_eq_true, Bool.and_eq_true, beq_iff_eq, entriesIdentical_iff,
      List.forall₂_cons]

theorem identical_known {t : Ty} {c : Content} {v : Value} (h : (known t c).identical v = true) :
    ∃ d, v = known t d ∧ c.identical d = true := by
  cases v with
  | null u    => cases h
  | unknown u => cases h
  | known u d =>
    obtain ⟨ht, hd⟩ := Bool.and_eq_true_iff.1 h
    obtain rfl : t = u := beq_iff_eq.1 ht
    exact ⟨d, rfl, hd⟩

theorem identical_known_self {t : Ty} {c : Content} (h : c.identical c = true) :
    (known t c).identical (known t c) = true := Bool.and_eq_true_iff.2 ⟨beq_iff_eq.2 rfl, h⟩

theorem identical_self (v : Value) : v.identical v = true := by
  induction v using Value.node_induction with
  | null t       => exact beq_iff_eq.2 rfl
  | unknown t    => exact beq_iff_eq.2 rfl
  | string t s   => exact identical_known_self (beq_iff_eq.2 rfl)
  | number t n   => exact identical_known_self n.identical_self
  | bool t b     => exact identical_known_self (beq_iff_eq.2 rfl)
  | list t xs ih => exact identical_known_self (itemsIdentical_iff.2 (List.forall₂_same.2 ih))
  | map t es ih  => exact identical_known_self (entriesIdentical_iff.2 (List.forall₂_same.2 fun e he => ⟨rfl, ih e he⟩))

theorem equal_known_of {t : Ty} {c d : Content} (h : c.equal t.isSet d = true) : (known t c).equal (known t d) = true :=
  Bool.and_eq_true_iff.2 ⟨beq_iff_eq.2 rfl, h⟩

theorem equal_set {t : Ty} (ht : t.isSet = true) (xs ys : List Value) :
    (known t (.list xs)).equal (known t (.list ys)) = (xs.length == ys.length && matched equal xs ys) := by
  rw [← Content.itemsMatched_eq]
  show (t == t && Content.equal (.list xs) t.isSet (.list ys)) = _
  rw [ht, BEq.rfl, Bool.true_and]
  rfl

/-- Lists that are equal item by item are equal, also as sets. -/
theorem equal_list_of {t : Ty} {xs ys : List Value} (h : List.Forall₂ (fun x y => x.equal y = true) xs ys) :
    (known t (.list xs)).equal (known t (.list ys)) = true := by
  cases ht : t.isSet with
  | true  =>
    rw [equal_set ht]
    exact Bool.and_eq_true_iff.2 ⟨beq_iff_eq.2 h.length_eq, matched_of_forall₂ h⟩
  | false =>
    refine equal_known_of ?_
    rw [ht]
    exact Content.itemsEqual_iff.2 h

theorem equal_map_of {t : Ty} {es fs : List (String × Value)} (hlen : es.length = fs.length)
    (h : ∀ e ∈ es, ∃ y, Table.find? e.1 fs = some y ∧ e.2.equal y = true) :
    (known t (.map es)).equal (known t (.map fs)) = true :=
  equal_known_of (Bool.and_eq_true_iff.2 ⟨beq_iff_eq.2 hlen, Content.entriesEqual_iff.2 h⟩)

/-- **What is identical is equal**, if it is known throughout. -/
theorem equal_of_identical {v : Value} : ∀ {w : Value}, v.WellFormed → v.fullyKnown = true → v.identical w = true →
    v.equal w = true := by
  induction v using Value.node_induction with
  | null t =>
    intro w _ _ h
    cases w <;> exact h
  | unknown t =>
    intro w _ hk
    cases hk
  | string t s =>
    intro w _ _ h
    obtain ⟨d, rfl, hd⟩ := identical_known h
    cases d <;> exact equal_known_of hd
  | number t n =>
    intro w _ _ h
    obtain ⟨d, rfl, hd⟩ := identical_known h
    cases d <;> first | exact equal_known_of (Number.equal_of_identical hd) | cases hd
  | bool t b =>
    intro w _ _ h
    obtain ⟨d, rfl, hd⟩ := identical_known h
    cases d <;> exact equal_known_of hd
  | list t xs ih =>
    intro w hv hk h
    obtain ⟨d, rfl, hd⟩ := identical_known h
    cases d with
    | list ys =>
      have hitems : ∀ x ∈ xs, ∀ {y : Value}, x.identical y = true → x.equal y = true := fun x hx =>
        ih x hx (hv.items x hx) (allFullyKnown_iff.1 hk x hx)
      have hall := (List.forall₂_and_left xs ys).2 ⟨hitems, itemsIdentical_iff.1 hd⟩
      exact equal_list_of (hall.imp fun x y hxy => hxy.1 hxy.2)
    | _       => cases hd
  | map t es ih =>
    intro w hv hk h
    obtain ⟨d, rfl, hd⟩ := identical_known h
    cases d with
    | map fs =>
      have hall := entriesIdentical_iff.1 hd
      have hnames : Table.names es = Table.names fs :=
        Table.names_eq_of_forall₂ (R := fun x y => Value.identical x y = true) hall
      refine equal_map_of hall.length_eq fun e he => ?_
      obtain ⟨f, hf, hname, hef⟩ := exists_mem_right hall he
      have hfs : Table.Ascending fs := Table.ascending_of_names_eq hnames hv.ascending
      rw [hname]
      exact ⟨f.2, Table.find?_of_mem hfs hf, ih e he (hv.entries e he) (entriesFullyKnown_iff.1 hk e he) hef⟩
    | _      => cases hd

theorem equal_self {v : Value} (h : v.WellFormed) (hk : v.fullyKnown = true) : v.equal v = true :=
  equal_of_identical h hk v.identical_self

end Value

end ProviderProtocol
