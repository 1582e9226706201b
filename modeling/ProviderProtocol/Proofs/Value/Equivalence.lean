import ProviderProtocol.Proofs.Value.Equality
import ProviderProtocol.Proofs.Value.Node
/-!
# How far equality is an equivalence

Equality is symmetric on well-formed values (`equality_symmetric`), whichever of two sets the items are matched from.

It is reflexive on the values that are known throughout and on no others, and there it does not tell identical values
apart (`equality_known`).

It is transitive as far as the equality of the numbers within is (`equal_trans_of`): on trees that hold their numbers
as integers, in particular (`equality_transitive`).
-/
namespace ProviderProtocol

namespace Value

/-! ## Symmetry -/

theorem guarded_comm {α : Type} [BEq α] [LawfulBEq α] {s t : α} {p q : Bool} (h : s = t → p = q) :
    (s == t && p) = (t == s && q) := by
  by_cases hst : s = t
  · rw [h hst, BEq.comm (a := s)]
  · rw [beq_false_of_ne hst, beq_false_of_ne (Ne.symm hst), Bool.false_and, Bool.false_and]

theorem known_equal_comm {t : Ty} {c : Content} {v : Value}
    (h : ∀ d, v = known t d → c.equal t.isSet d = d.equal t.isSet c) : (known t c).equal v = v.equal (known t c) := by
  cases v with
  | null u    => rfl
  | unknown u => rfl
  | known u d =>
    refine guarded_comm fun ht => ?_
    subst ht
    exact h d rfl

theorem itemsEqual_comm : ∀ {xs ys : List Value}, (∀ x ∈ xs, ∀ y ∈ ys, x.equal y = y.equal x) →
    Content.itemsEqual xs ys = Content.itemsEqual ys xs
  | [], [], _           => rfl
  | [], _ :: _, _       => rfl
  | _ :: _, [], _       => rfl
  | x :: xs, y :: ys, h => by
    have hrest : Content.itemsEqual xs ys = Content.itemsEqual ys xs :=
      itemsEqual_comm fun a ha b hb => h a (List.mem_cons_of_mem _ ha) b (List.mem_cons_of_mem _ hb)
    rw [Content.itemsEqual, Content.itemsEqual, h x List.mem_cons_self y List.mem_cons_self, hrest]

theorem itemsMatched_comm {xs ys : List Value} (hlen : xs.length = ys.length)
    (h : ∀ x ∈ xs, ∀ y ∈ ys, x.equal y = y.equal x) : Content.itemsMatched xs ys = Content.itemsMatched ys xs := by
  rw [Content.itemsMatched_eq, Content.itemsMatched_eq, matched_swap hlen]
  exact matched_congr fun y hy x hx => h x hx y hy

theorem entriesEqual_swap {es fs : List (String × Value)} (he : Table.Ascending es) (hf : Table.Ascending fs)
    (hlen : es.length = fs.length) (hswap : ∀ e ∈ es, ∀ f ∈ fs, e.2.equal f.2 = true → f.2.equal e.2 = true)
    (h : Content.entriesEqual es fs = true) : Content.entriesEqual fs es = true := by
  have hfound := Content.entriesEqual_iff.1 h
  have hnames : Table.names es = Table.names fs :=
    Table.names_eq_of_found (R := (equal · · = true)) he hf hlen hfound
  refine Content.entriesEqual_iff.2 fun f hmem => ?_
  obtain ⟨x, hx, heq⟩ := Table.exists_mem_of_found (R := (equal · · = true)) hf hnames hfound hmem
  exact ⟨x, Table.find?_of_mem he hx, hswap (f.1, x) hx f hmem heq⟩

theorem equal_comm {a : Value} : ∀ {b : Value}, a.WellFormed → b.WellFormed → a.equal b = b.equal a := by
  induction a using Value.node_induction with
  | null t =>
    intro b _ _
    cases b with
    | null u => exact BEq.comm
    | _      => rfl
  | unknown t =>
    intro b _ _
    cases b <;> rfl
  | string t s =>
    intro b _ _
    refine known_equal_comm fun d _ => ?_
    cases d with
    | string r => exact BEq.comm
    | _        => cases t.isSet <;> rfl
  | number t n =>
    intro b _ _
    refine known_equal_comm fun d _ => ?_
    cases d with
    | number m => exact Number.equal_comm n m
    | _        => cases t.isSet <;> rfl
  | bool t x =>
    intro b _ _
    refine known_equal_comm fun d _ => ?_
    cases d with
    | bool y => exact BEq.comm
    | _      => cases t.isSet <;> rfl
  | list t xs ih =>
    intro b ha hb
    refine known_equal_comm fun d hd => ?_
    subst hd
    cases d with
    | list ys =>
      have hitems : ∀ x ∈ xs, ∀ y ∈ ys, x.equal y = y.equal x := fun x hx y hy =>
        ih x hx (ha.items x hx) (hb.items y hy)
      cases t.isSet with
      | false => exact itemsEqual_comm hitems
      | true  => exact guarded_comm fun hlen => itemsMatched_comm hlen hitems
    | _ => cases t.isSet <;> rfl
  | map t es ih =>
    intro b ha hb
    refine known_equal_comm fun d hd => ?_
    subst hd
    cases d with
    | map fs =>
      have hentries : ∀ e ∈ es, ∀ f ∈ fs, e.2.equal f.2 = f.2.equal e.2 := fun e he f hf =>
        ih e he (ha.entries e he) (hb.entries f hf)
      refine guarded_comm fun hlen => Bool.eq_iff_iff.2 ⟨?_, ?_⟩
      · exact entriesEqual_swap ha.ascending hb.ascending hlen fun e he f hf => (hentries e he f hf ▸ ·)
      · exact entriesEqual_swap hb.ascending ha.ascending hlen.symm fun f hf e he => (hentries e he f hf ▸ ·)
    | _ => cases t.isSet <;> rfl

/-- **Equality is symmetric**, and whether the items of two sets match does not depend on whose items choose. -/
theorem equality_symmetric {a b : Value} (ha : a.WellFormed) (hb : b.WellFormed) :
    a.equal b = b.equal a ∧
      ∀ xs ys, a.items? = some xs → b.items? = some ys → xs.length = ys.length →
        Content.itemsMatched xs ys = Content.itemsMatched ys xs := by
  refine ⟨equal_comm ha hb, fun xs ys hxs hys hlen => ?_⟩
  have hitems : ∀ x ∈ xs, ∀ y ∈ ys, x.equal y = y.equal x := fun x hx y hy =>
    equal_comm (ha.of_items? hxs x hx) (hb.of_items? hys y hy)
  exact itemsMatched_comm hlen hitems

/-! The float in the one set equals both integers in the other, which differ. -/

def sizes (ns : List Number) : Value := .known (.set .number) (.list (ns.map ofNumber))

theorem equality_symmetric_sizes :
    (sizes [.wideFloat, .wideNext]).WellFormed ∧ (sizes [.wideNext, .wide]).WellFormed ∧
      (sizes [.wideFloat, .wideNext]).equal (sizes [.wideNext, .wide]) = false ∧
        (sizes [.wideNext, .wide]).equal (sizes [.wideFloat, .wideNext]) = false := by
  have ha : (sizes [.wideFloat, .wideNext]).WellFormed := by decide
  have hb : (sizes [.wideNext, .wide]).WellFormed := by decide
  have hab : (sizes [.wideFloat, .wideNext]).equal (sizes [.wideNext, .wide]) = false := by decide +kernel
  exact ⟨ha, hb, hab, (equality_symmetric ha hb).1.symm.trans hab⟩

/-! ## Transitivity -/

/-- Every number held in the value, at any depth, has the property. -/
def NumbersAre (p : Number → Prop) (v : Value) : Prop := v.Throughout fun x => ∀ n, x.number? = some n → p n

/-- A well-formed value over the numbers with the property. -/
structure Over (p : Number → Prop) (v : Value) : Prop where
  wellFormed : v.WellFormed
  numbers : v.NumbersAre p

section

variable {p : Number → Prop}

theorem Over.number {t : Ty} {n : Number} (h : (known t (.number n)).Over p) : p n := h.numbers [] _ rfl n rfl

theorem Over.item {t : Ty} {xs : List Value} (h : (known t (.list xs)).Over p) {x : Value} (hx : x ∈ xs) : x.Over p :=
  ⟨h.wellFormed.items x hx, (throughout_known_iff.1 h.numbers).2 x hx⟩

theorem Over.entry {t : Ty} {es : List (String × Value)} (h : (known t (.map es)).Over p) {e : String × Value}
    (he : e ∈ es) : e.2.Over p :=
  ⟨h.wellFormed.entries e he, (throughout_known_iff.1 h.numbers).2 e.2 (List.mem_map_of_mem he)⟩

/-- From this value on, two equalities make one. -/
def Composes (p : Number → Prop) (a : Value) : Prop :=
  ∀ b c, b.Over p → c.Over p → a.equal b = true → b.equal c = true → a.equal c = true

theorem forall₂_trans {R : Value → Value → Prop} : ∀ {xs ys zs : List Value},
    (∀ x ∈ xs, ∀ y ∈ ys, ∀ z ∈ zs, R x y → R y z → R x z) → List.Forall₂ R xs ys → List.Forall₂ R ys zs →
      List.Forall₂ R xs zs
  | _, _, _, _, .nil, .nil                 => .nil
  | _, _, _, h, .cons hx hxs, .cons hy hys => by
    refine .cons (h _ List.mem_cons_self _ List.mem_cons_self _ List.mem_cons_self hx hy) ?_
    exact forall₂_trans (fun a ha b hb c hc =>
      h a (List.mem_cons_of_mem _ ha) b (List.mem_cons_of_mem _ hb) c (List.mem_cons_of_mem _ hc)) hxs hys

/-- Equality falls into blocks where it composes: what equals the same equals each other. -/
theorem inBlocks_of_composes {xs zs : List Value} (hx : ∀ x ∈ xs, x.Over p) (hz : ∀ z ∈ zs, z.Over p)
    (h : ∀ x ∈ xs, x.Composes p) : InBlocks (fun x z => x.equal z = true) xs zs := by
  intro x hxs x' hxs' z hzs z' hzs' hxz hxz' hx'z'
  have hzx' : z.equal x' = true := by
    rw [equal_comm (hz z hzs).wellFormed (hx x' hxs').wellFormed]
    exact hxz'
  have hxx' : x.equal x' = true := h x hxs z x' (hz z hzs) (hx x' hxs') hxz hzx'
  exact h x hxs x' z' (hx x' hxs') (hz z' hzs') hxx' hx'z'

theorem list_composes {t : Ty} {xs : List Value} (ha : (known t (.list xs)).Over p) (h : ∀ x ∈ xs, x.Composes p) :
    (known t (.list xs)).Composes p := by
  intro b c hb hc hab hbc
  obtain ⟨ys, rfl, ys', hys, hsame, hxy⟩ := equal_list hab
  obtain ⟨zs, rfl, zs', hzs, hsame', hyz⟩ := equal_list hbc
  have hcompose : ∀ x ∈ xs, ∀ y ∈ ys, ∀ z ∈ zs, x.equal y = true → y.equal z = true → x.equal z = true :=
    fun x hx y hy z hz => h x hx y z (hb.item hy) (hc.item hz)
  cases ht : t.isSet with
  | false =>
    obtain rfl := hsame ht
    obtain rfl := hsame' ht
    exact equal_list_of (forall₂_trans hcompose hxy hyz)
  | true =>
    -- The two orders are composed into one order of the third set; the greedy run finds it or another.
    obtain ⟨ws, hyw, hwz⟩ := List.perm_comp_forall₂ hys hyz
    have hwzs : ws.Perm zs := hwz.trans hzs
    have hxw : List.Forall₂ (fun x z => x.equal z = true) xs ws :=
      forall₂_trans (fun x hx y hy z hz => hcompose x hx y (hys.subset hy) z (hwzs.subset hz)) hxy hyw
    have hpaired : Paired (fun x z => x.equal z = true) xs zs := ⟨ws, hwzs, hxw⟩
    have hblocks := inBlocks_of_composes (fun x => ha.item) (fun z => hc.item) h
    rw [equal_set ht]
    exact Bool.and_eq_true_iff.2 ⟨beq_iff_eq.2 hpaired.length_eq, matched_of_paired hblocks hpaired⟩

theorem map_composes {t : Ty} {es : List (String × Value)} (ha : (known t (.map es)).Over p)
    (h : ∀ e ∈ es, e.2.Composes p) : (known t (.map es)).Composes p := by
  intro b c hb hc hab hbc
  obtain ⟨fs, rfl, hef, hes⟩ := equal_map hab ha.wellFormed.ascending hb.wellFormed
  obtain ⟨gs, rfl, hfg, hfs⟩ := equal_map hbc hb.wellFormed.ascending hc.wellFormed
  have hlen : es.length = gs.length := by
    simpa [Table.names] using congrArg List.length (hef.trans hfg)
  refine equal_map_of hlen fun e he => ?_
  obtain ⟨y, hy, hey⟩ := hes e he
  have hyfs : (e.1, y) ∈ fs := Table.mem_of_find? hy
  obtain ⟨z, hz, hyz⟩ := hfs (e.1, y) hyfs
  exact ⟨z, hz, h e he y z (hb.entry hyfs) (hc.entry (Table.mem_of_find? hz)) hey hyz⟩

/-- **Equality is transitive on trees if it is among the numbers that they hold.** -/
theorem equal_trans_of (hp : Number.TransitiveOn p) {a : Value} : a.Over p → a.Composes p := by
  induction a using Value.node_induction with
  | null t =>
    intro _ b c _ _ hab hbc
    obtain rfl := equal_null hab
    exact hbc
  | unknown t =>
    intro _ b c _ _ hab
    cases hab
  | string t s =>
    intro _ b c _ _ hab hbc
    obtain ⟨d, rfl, hd⟩ := equal_known hab
    cases d with
    | string r =>
      obtain rfl : s = r := beq_iff_eq.1 hd
      exact hbc
    | _ => cases hd
  | number t n =>
    intro ha b c hb hc hab hbc
    obtain ⟨d, rfl, hd⟩ := equal_known hab
    cases d with
    | number m =>
      obtain ⟨e, rfl, he⟩ := equal_known hbc
      cases e with
      | number k => exact equal_known_of (hp n m k ha.number hb.number hc.number hd he)
      | _        => cases he
    | _ => cases hd
  | bool t x =>
    intro _ b c _ _ hab hbc
    obtain ⟨d, rfl, hd⟩ := equal_known hab
    cases d with
    | bool y =>
      obtain rfl : x = y := beq_iff_eq.1 hd
      exact hbc
    | _ => cases hd
  | list t xs ih => exact fun ha => list_composes ha fun x hx => ih x hx (ha.item hx)
  | map t es ih  => exact fun ha => map_composes ha fun e he => ih e he (ha.entry he)

end

/-- **Equality is transitive on trees that hold all their numbers as integers.** -/
theorem equality_transitive {a b c : Value} (ha : a.WellFormed) (hb : b.WellFormed) (hc : c.WellFormed)
    (hai : a.NumbersAre fun n => n.isInteger = true) (hbi : b.NumbersAre fun n => n.isInteger = true)
    (hci : c.NumbersAre fun n => n.isInteger = true) (hab : a.equal b = true) (hbc : b.equal c = true) :
    a.equal c = true :=
  equal_trans_of Number.transitiveOn_integers ⟨ha, hai⟩ b c ⟨hb, hbi⟩ ⟨hc, hci⟩ hab hbc

/-! Groups of integers in three orders, the least one with a sign next to the first that only fits without. -/

def groups (nss : List (List Number)) : Value := .known (.set (.set .number)) (.list (nss.map sizes))

def least : Number := .int (-9223372036854775808) (by decide)

def unsignedOnly : Number := .int 9223372036854775808 (by decide)

theorem sizes_numbersAre {p : Number → Prop} {ns : List Number} : (sizes ns).NumbersAre p ↔ ∀ n ∈ ns, p n := by
  simp [NumbersAre, sizes, ofNumber, throughout_known_iff, Content.parts, number?]

theorem groups_numbersAre {p : Number → Prop} {nss : List (List Number)} :
    (groups nss).NumbersAre p ↔ ∀ ns ∈ nss, (sizes ns).NumbersAre p := by
  simp [NumbersAre, groups, throughout_known_iff, Content.parts, number?]

theorem groups_integers {nss : List (List Number)} (h : ∀ ns ∈ nss, ∀ n ∈ ns, n.isInteger = true) :
    (groups nss).NumbersAre fun n => n.isInteger = true :=
  groups_numbersAre.2 fun ns hns => sizes_numbersAre.2 (h ns hns)

theorem equality_transitive_groups :
    (groups [[least, unsignedOnly], [.wide]]).equal (groups [[.wide], [unsignedOnly, least]]) = true ∧
      (groups [[.wide], [unsignedOnly, least]]).equal (groups [[unsignedOnly, least], [.wide]]) = true ∧
        (groups [[least, unsignedOnly], [.wide]]).equal (groups [[unsignedOnly, least], [.wide]]) = true := by
  have hab : (groups [[least, unsignedOnly], [.wide]]).equal (groups [[.wide], [unsignedOnly, least]]) = true := by
    decide +kernel
  have hbc : (groups [[.wide], [unsignedOnly, least]]).equal (groups [[unsignedOnly, least], [.wide]]) = true := by
    decide +kernel
  refine ⟨hab, hbc, equality_transitive (by decide) (by decide) (by decide) ?_ ?_ ?_ hab hbc⟩
  all_goals exact groups_integers (by decide)

/-! ## Reflexivity -/

theorem fullyKnown_iff {v : Value} : v.fullyKnown = true ↔ v.Throughout fun x => x.isUnknown = false := by
  induction v using Value.node_induction with
  | null t       => exact iff_of_true rfl (throughout_null_iff.2 rfl)
  | unknown t    => exact iff_of_false Bool.false_ne_true fun h => Bool.noConfusion (throughout_unknown_iff.1 h)
  | string t s   => exact iff_of_true rfl (throughout_known_iff.2 ⟨rfl, List.forall_mem_nil _⟩)
  | number t n   => exact iff_of_true rfl (throughout_known_iff.2 ⟨rfl, List.forall_mem_nil _⟩)
  | bool t b     => exact iff_of_true rfl (throughout_known_iff.2 ⟨rfl, List.forall_mem_nil _⟩)
  | list t xs ih =>
    rw [throughout_known_iff]
    exact (allFullyKnown_iff.trans (forall₂_congr ih)).trans (and_iff_right rfl).symm
  | map t es ih =>
    rw [throughout_known_iff, Content.parts, List.forall_mem_map]
    exact (entriesFullyKnown_iff.trans (forall₂_congr ih)).trans (and_iff_right rfl).symm

/-- **Equality knows**: values that are equal have one type and are known throughout, and what is known throughout
equals itself and whatever is identical to it. -/
theorem equality_known {a b : Value} (ha : a.WellFormed) (hb : b.WellFormed) :
    (a.fullyKnown = true ↔ a.Throughout fun x => x.isUnknown = false) ∧
      (a.equal b = true → a.ty = b.ty ∧ a.fullyKnown = true ∧ b.fullyKnown = true) ∧
        a.equal a = a.fullyKnown ∧ (a.identical b = true → a.equal b = a.fullyKnown) := by
  refine ⟨fullyKnown_iff, fun h => ⟨equal_ty h, fullyKnown_of_equal ha hb h⟩, ?_, fun h => ?_⟩
  · exact Bool.eq_iff_iff.2 ⟨fun h => (fullyKnown_of_equal ha ha h).1, equal_self ha⟩
  · exact Bool.eq_iff_iff.2 ⟨fun h => (fullyKnown_of_equal ha hb h).1, fun hk => equal_of_identical ha hk h⟩

/-! The two float zeros are identical, and no set that holds an unknown equals itself. -/

def zeroAndOne (negative : Bool) : Value := sizes [.float (.zero negative), .int 1 (by decide)]

def withUnknown : Value := .known (.set .number) (.list [.unknown .number])

theorem equality_known_zeros :
    (zeroAndOne true).WellFormed ∧ (zeroAndOne false).WellFormed ∧ withUnknown.WellFormed ∧
      (zeroAndOne true).equal (zeroAndOne false) = true ∧ withUnknown.equal withUnknown = false := by
  have hneg : (zeroAndOne true).WellFormed := by decide
  have hpos : (zeroAndOne false).WellFormed := by decide
  have hunknown : withUnknown.WellFormed := by decide
  refine ⟨hneg, hpos, hunknown, ?_, (equality_known hunknown hunknown).2.2.1⟩
  exact (equality_known hneg hpos).2.2.2 (by decide)

end Value

end ProviderProtocol
