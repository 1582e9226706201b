import ProviderProtocol.Proofs.Value.Equivalence
/-!
# The order of the elements of a set

Two sets should be equal in whatever order their elements come.  Sets that cannot be paired off element by element are
equal in no order.  Sets that can are equal in every order exactly if elements of the one that share an equal in the
other have all their equals there in common; otherwise it depends on the order whether the first fit is a good one
(`equal_in_any_order_iff`).  Such are sets that hold their numbers in one form, as integers or as floats.  Where an
integer and a float equal one element, and only one of them another, the order matters (`set_order_matters`).
-/
namespace ProviderProtocol

namespace Value

/-- The known set of these elements. -/
def setOf (elem : Ty) (xs : List Value) : Value := .known (.set elem) (.list xs)

/-- Each element of the first list goes with an equal one of the second. -/
def PairedByEqual (xs ys : List Value) : Prop := Paired (fun x y => x.equal y = true) xs ys

/-- Elements of the first list that equal one element of the second equal the same elements. -/
def ShareEquals (xs ys : List Value) : Prop := InBlocks (fun x y => x.equal y = true) xs ys

theorem setOf_equal (elem : Ty) (xs ys : List Value) :
    (setOf elem xs).equal (setOf elem ys) = (xs.length == ys.length && matched equal xs ys) := equal_set rfl xs ys

theorem pairedByEqual_of_equal {elem : Ty} {xs ys : List Value} (h : (setOf elem xs).equal (setOf elem ys) = true) :
    PairedByEqual xs ys := by
  rw [setOf_equal] at h
  obtain ⟨hlen, hmatched⟩ := Bool.and_eq_true_iff.1 h
  exact paired_of_matched (beq_iff_eq.1 hlen) hmatched

/-- Where elements share their equals, the first fit is as good as any. -/
theorem setOf_equal_iff {elem : Ty} {xs ys : List Value} (h : PairedByEqual xs ys → ShareEquals xs ys) :
    (setOf elem xs).equal (setOf elem ys) = true ↔ PairedByEqual xs ys := by
  refine ⟨pairedByEqual_of_equal, fun hp => ?_⟩
  rw [setOf_equal]
  exact Bool.and_eq_true_iff.2 ⟨beq_iff_eq.2 hp.length_eq, matched_of_paired (h hp) hp⟩

theorem any_order_iff {elem : Ty} {xs ys : List Value} :
    (∀ xs' ys', xs'.Perm xs → ys'.Perm ys →
        (setOf elem xs').equal (setOf elem ys') = (setOf elem xs).equal (setOf elem ys)) ↔
      (PairedByEqual xs ys → ShareEquals xs ys) := by
  constructor
  · rintro h ⟨zs, hperm, hpairs⟩
    have hall : ∀ xs' ys', xs'.Perm xs → ys'.Perm ys → (setOf elem xs').equal (setOf elem ys') = true := by
      intro xs' ys' hxs hys
      rw [h xs' ys' hxs hys, ← h xs zs (.refl xs) hperm]
      exact equal_list_of hpairs
    refine inBlocks_of_matched (hpairs.length_eq.trans hperm.length_eq) fun xs' ys' hxs hys => ?_
    have hequal := hall xs' ys' hxs hys
    rw [setOf_equal] at hequal
    exact (Bool.and_eq_true_iff.1 hequal).2
  · intro h xs' ys' hxs hys
    have hshare : PairedByEqual xs' ys' → ShareEquals xs' ys' := fun hp =>
      (h (hp.perm hxs.symm hys.symm)).perm hxs hys
    rw [Bool.eq_iff_iff, setOf_equal_iff hshare, setOf_equal_iff h]
    exact ⟨fun hp => hp.perm hxs.symm hys.symm, fun hp => hp.perm hxs hys⟩

theorem shareEquals_of_numbers {p : Number → Prop} (hp : Number.TransitiveOn p) {elem : Ty} {xs ys : List Value}
    (hx : (setOf elem xs).Over p) (hy : (setOf elem ys).Over p) : ShareEquals xs ys :=
  inBlocks_of_composes (fun _ => hx.item) (fun _ => hy.item) fun _ h => equal_trans_of hp (hx.item h)

/-- **When the order of the elements makes no difference**: exactly if the sets cannot be paired off at all or elements
that equal one element of the other set equal the same elements; so whenever all numbers within are integers, and
whenever all are floats. -/
theorem equal_in_any_order_iff {elem : Ty} {xs ys : List Value} (hx : (setOf elem xs).WellFormed)
    (hy : (setOf elem ys).WellFormed) :
    ((∀ xs' ys', xs'.Perm xs → ys'.Perm ys →
        (setOf elem xs').equal (setOf elem ys') = (setOf elem xs).equal (setOf elem ys)) ↔
      (PairedByEqual xs ys → ShareEquals xs ys)) ∧
    ∀ form, (setOf elem xs).NumbersAre (fun n => n.isInteger = form) →
      (setOf elem ys).NumbersAre (fun n => n.isInteger = form) →
        ∀ xs' ys', xs'.Perm xs → ys'.Perm ys →
          (setOf elem xs').equal (setOf elem ys') = (setOf elem xs).equal (setOf elem ys) := by
  refine ⟨any_order_iff, fun form hxn hyn => any_order_iff.2 fun _ => ?_⟩
  exact shareEquals_of_numbers (Number.transitiveOn_form form) ⟨hx, hxn⟩ ⟨hy, hyn⟩

/-! Neighbouring integers are told apart whatever the order; between them a float spoils that. -/

theorem equal_in_any_order_iff_sizes :
    (sizes [.wide, .wideNext]).WellFormed ∧ (sizes [.wideNext, .wide]).WellFormed ∧
      ∀ xs' ys', xs'.Perm ([.wide, .wideNext].map ofNumber) → ys'.Perm ([.wideNext, .wide].map ofNumber) →
        (setOf .number xs').equal (setOf .number ys') = true := by
  have hx : (sizes [.wide, .wideNext]).WellFormed := by decide
  have hy : (sizes [.wideNext, .wide]).WellFormed := by decide
  refine ⟨hx, hy, fun xs' ys' hxs hys => ?_⟩
  have hintegers := (equal_in_any_order_iff hx hy).2 true (sizes_numbersAre.2 (by decide)) (sizes_numbersAre.2 (by decide))
  rw [hintegers xs' ys' hxs hys]
  decide

/-- The float takes the integer that it finds first, and so may take the only one that the other integer equals. -/
theorem set_order_matters :
    ¬ ∀ (elem : Ty) (xs ys xs' ys' : List Value), (setOf elem xs).WellFormed → (setOf elem ys).WellFormed →
      xs'.Perm xs → ys'.Perm ys →
        (setOf elem xs').equal (setOf elem ys') = (setOf elem xs).equal (setOf elem ys) := by
  intro h
  have hswapped : [ofNumber .wide, ofNumber .wideFloat].Perm [ofNumber .wideFloat, ofNumber .wide] := .swap _ _ _
  have hsame := h .number [ofNumber .wideFloat, ofNumber .wide] [ofNumber .wide, ofNumber .wideNext]
    [ofNumber .wide, ofNumber .wideFloat] [ofNumber .wide, ofNumber .wideNext] (by decide) (by decide) hswapped (.refl _)
  exact absurd hsame (by decide +kernel)

end Value

end ProviderProtocol
