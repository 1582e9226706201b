import ProviderProtocol.Proofs.Value.Obtainable
/-!
# Sets of distinct elements

No two elements of a set should be identical (`Value.SetsDistinct`).  The constructors see to that, taking parts out
and replacing attributes keep it, and whatever values there are with this property can be made so (`Assembled`).  A
rewriting keeps it as well if it leaves what is inside of sets alone (`Postcondition.transformAt_setsDistinct`), and so
does marking for a schema that computes nothing in there (`Schema.markComputedUnknown_setsDistinct`).

Otherwise the elements are taken as they come: a value that was read, rewritten, marked or made by `Value.of` has the
property exactly if it could have been assembled as well (`Obtainable.setsDistinct_iff_assembled`), and not all have it
(`Obtainable.not_setsDistinct`).
-/
namespace ProviderProtocol

/-! ## Identity goes both ways -/

theorem Number.identical_comm (a b : Number) : a.identical b = b.identical a := by
  cases a with
  | int m hm =>
    cases b with
    | int n hn => exact BEq.comm
    | float y  => rfl
  | float x  =>
    cases b with
    | int n hn => rfl
    | float y  => exact Binary64.equal_comm x y

theorem Content.itemsIdentical_comm : ∀ {xs : List Value}, (∀ x ∈ xs, ∀ y : Value, x.identical y = y.identical x) →
    ∀ ys : List Value, itemsIdentical xs ys = itemsIdentical ys xs
  | [], _, ys           => by cases ys <;> rfl
  | x :: xs, h, []      => rfl
  | x :: xs, h, y :: ys => by
    obtain ⟨hx, hxs⟩ := List.forall_mem_cons.1 h
    rw [itemsIdentical, itemsIdentical, hx y, itemsIdentical_comm hxs ys]

theorem Content.entriesIdentical_comm : ∀ {es : List (String × Value)},
    (∀ e ∈ es, ∀ y : Value, e.2.identical y = y.identical e.2) →
      ∀ fs : List (String × Value), entriesIdentical es fs = entriesIdentical fs es
  | [], _, fs                     => by cases fs <;> rfl
  | (j, x) :: es, h, []           => rfl
  | (j, x) :: es, h, (k, y) :: fs => by
    obtain ⟨hx, hes⟩ := List.forall_mem_cons.1 h
    rw [entriesIdentical, entriesIdentical, hx y, entriesIdentical_comm hes fs, BEq.comm (a := j)]

theorem Content.identical_comm {c : Content} (h : ∀ x ∈ c.parts, ∀ y : Value, x.identical y = y.identical x)
    (d : Content) : c.identical d = d.identical c := by
  cases c with
  | string s => cases d <;> first | exact BEq.comm | rfl
  | number n => cases d <;> first | exact Number.identical_comm _ _ | rfl
  | bool b   => cases d <;> first | exact BEq.comm | rfl
  | list xs  => cases d <;> first | exact itemsIdentical_comm h _ | rfl
  | map es   => cases d <;> first | exact entriesIdentical_comm (List.forall_mem_map.1 h) _ | rfl

theorem Value.known_identical_comm {t : Ty} {c : Content}
    (h : ∀ x ∈ c.parts, ∀ y : Value, x.identical y = y.identical x) (w : Value) :
    (known t c).identical w = w.identical (known t c) := by
  cases w with
  | known u d =>
    show (t == u && c.identical d) = (u == t && d.identical c)
    rw [Content.identical_comm h, BEq.comm (a := t)]
  | _ => rfl

theorem Value.identical_comm (v : Value) : ∀ w : Value, v.identical w = w.identical v := by
  induction v using Value.node_induction with
  | null t =>
    intro w
    cases w with
    | null u => exact BEq.comm
    | _      => rfl
  | unknown t =>
    intro w
    cases w with
    | unknown u => exact BEq.comm
    | _         => rfl
  | string t s => exact known_identical_comm (List.forall_mem_nil _)
  | number t n => exact known_identical_comm (List.forall_mem_nil _)
  | bool t b => exact known_identical_comm (List.forall_mem_nil _)
  | list t xs ih => exact known_identical_comm ih
  | map t es ih => exact known_identical_comm (List.forall_mem_map.2 ih)

namespace Value

/-- No two of the values are identical. -/
def Apart (xs : List Value) : Prop :=
  ∀ (i j : Nat) (x y : Value), i ≠ j → xs[i]? = some x → xs[j]? = some y → x.identical y = false

theorem apart_iff_pairwise {xs : List Value} : Apart xs ↔ xs.Pairwise fun x y => x.identical y = false := by
  rw [List.pairwise_iff_getElem]
  unfold Apart
  constructor
  · intro h i j hi hj hlt
    exact h i j _ _ (Nat.ne_of_lt hlt) (List.getElem?_eq_getElem hi) (List.getElem?_eq_getElem hj)
  · intro h i j x y hne hx hy
    obtain ⟨hi, rfl⟩ := List.getElem?_eq_some_iff.1 hx
    obtain ⟨hj, rfl⟩ := List.getElem?_eq_some_iff.1 hy
    rcases Nat.lt_or_gt_of_ne hne with hlt | hlt
    · exact h i j hi hj hlt
    · rw [identical_comm]
      exact h j i hj hi hlt

/-- The elements of every known set within are apart. -/
def SetsDistinct (v : Value) : Prop :=
  ∀ q t c, v.nodeAt? q = some (.known (.set t) c) → Apart c.parts

/-! ## Nodes -/

theorem SetsDistinct.nodeAt? {v x : Value} {q : Position} (h : v.SetsDistinct) (hx : v.nodeAt? q = some x) :
    x.SetsDistinct := by
  intro r t c hr
  refine h (q ++ r) t c ?_
  rw [nodeAt?_append, hx]
  exact hr

theorem setsDistinct_iff_throughout {v : Value} :
    v.SetsDistinct ↔ v.Throughout fun x => ∀ t c, x = known (.set t) c → Apart c.parts := by
  constructor
  · rintro h q _ hq t c rfl
    exact h q t c hq
  · exact fun h q t c hq => h q _ hq t c rfl

theorem setsDistinct_null (t : Ty) : (null t).SetsDistinct := by
  rw [setsDistinct_iff_throughout, throughout_null_iff]
  intro u c h
  cases h

theorem setsDistinct_unknown (t : Ty) : (unknown t).SetsDistinct := by
  rw [setsDistinct_iff_throughout, throughout_unknown_iff]
  intro u c h
  cases h

theorem setsDistinct_known_iff {t : Ty} {c : Content} :
    (known t c).SetsDistinct ↔ (t.isSet = true → Apart c.parts) ∧ ∀ x ∈ c.parts, x.SetsDistinct := by
  simp only [setsDistinct_iff_throughout]
  rw [throughout_known_iff]
  refine and_congr_left fun _ => ⟨fun h hset => ?_, fun h u d hd => ?_⟩
  · cases t with
    | set elem => exact h elem c rfl
    | _        => cases hset
  · cases hd
    exact h rfl

theorem setsDistinct_of_parts {t : Ty} {c : Content} (ht : t.isSet = false) (h : ∀ x ∈ c.parts, x.SetsDistinct) :
    (known t c).SetsDistinct :=
  setsDistinct_known_iff.2 ⟨fun hset => absurd (hset.symm.trans ht) (by decide), h⟩

/-! ## Dropping duplicates -/

theorem apart_concat {kept : List Value} {x : Value} :
    Apart (kept ++ [x]) ↔ Apart kept ∧ kept.any (·.identical x) = false := by
  rw [apart_iff_pairwise, apart_iff_pairwise, List.pairwise_append, List.any_eq_false]
  simp

theorem apart_foldl : ∀ {xs kept : List Value}, Apart kept →
    Apart (xs.foldl (fun kept v => if kept.any (·.identical v) then kept else kept ++ [v]) kept)
  | [], kept, h      => h
  | x :: xs, kept, h => by
    rw [List.foldl_cons]
    refine apart_foldl ?_
    cases hx : kept.any (·.identical x) with
    | true  => exact h
    | false => exact apart_concat.2 ⟨h, hx⟩

theorem apart_distinct (xs : List Value) : Apart (distinct xs) :=
  apart_foldl (apart_iff_pairwise.2 List.Pairwise.nil)

theorem foldl_of_apart : ∀ {xs kept : List Value}, Apart (kept ++ xs) →
    xs.foldl (fun kept v => if kept.any (·.identical v) then kept else kept ++ [v]) kept = kept ++ xs
  | [], kept, _      => (List.append_nil kept).symm
  | x :: xs, kept, h => by
    rw [List.append_cons] at h
    have hfirst : Apart (kept ++ [x]) := apart_iff_pairwise.2 (List.pairwise_append.1 (apart_iff_pairwise.1 h)).1
    have hx := (apart_concat.1 hfirst).2
    rw [List.foldl_cons, hx, if_neg Bool.false_ne_true, foldl_of_apart h, ← List.append_cons]

theorem distinct_of_apart {xs : List Value} (h : Apart xs) : distinct xs = xs := foldl_of_apart h

end Value

/-! ## Rewriting -/

/-- The path leads into a set. -/
def Path.EntersSet (p : Path) : Prop := ∃ x, Step.element x ∈ p

theorem Path.EntersSet.concat {p : Path} (h : p.EntersSet) (step : Step) : Path.EntersSet (p ++ [step]) := by
  obtain ⟨x, hx⟩ := h
  exact ⟨x, List.mem_append_left _ hx⟩

theorem entersSet_itemStep {t : Ty} (ht : t.isSet = true) (path : Path) (i : Nat) (x : Value) :
    Path.EntersSet (path ++ [t.itemStep i x]) := by
  cases t with
  | set elem => exact ⟨x, List.mem_append_right _ List.mem_cons_self⟩
  | _        => cases ht

theorem isSet_of_entries {t : Ty} {es : List (String × Value)} (h : shapeFault? t (.map es) = none) :
    t.isSet = false := by
  cases t with
  | set elem => cases h
  | _        => rfl

namespace Postcondition

open Value

variable {m : Type → Type} [Monad m] [MonadExceptOf ProviderError m] (post : Postcondition m)
  {visit : Path → Value → m Value}

theorem rebuild_of (t : Ty) (c : Content) : post.holds (rebuild t c : m Value) fun w => of t c = .ok w := by
  unfold rebuild
  cases hof : of t c with
  | ok v        => exact post.pure rfl
  | error fault => exact post.throw _

theorem transformAt_within (hwithin : ∀ p x, Path.EntersSet p → post.holds (visit p x) (Eq x)) (v : Value) :
    ∀ path, Path.EntersSet path → post.holds (transformAt visit path v) (Eq v) := by
  induction v using Value.node_induction with
  | null t => exact fun path hp => hwithin path _ hp
  | unknown t => exact fun path hp => hwithin path _ hp
  | string t s => exact fun path hp => hwithin path _ hp
  | number t n => exact fun path hp => hwithin path _ hp
  | bool t b => exact fun path hp => hwithin path _ hp
  | list t xs ih =>
    intro path hp
    rw [transformAt]
    refine post.bind (post.transformItems_forall₂ 0 fun x hx j => ih x hx _ (hp.concat _)) fun ys hys => ?_
    rw [List.forall₂_eq_eq_eq] at hys
    subst hys
    refine post.bind (post.rebuild_of t _) fun w hw => ?_
    obtain ⟨_, rfl⟩ := of_eq_ok.1 hw
    exact hwithin path _ hp
  | map t es ih =>
    intro path hp
    rw [transformAt]
    refine post.bind (post.transformEntries_forall₂ fun e he => ih e he _ (hp.concat _)) fun fs hfs => ?_
    have heq : es = fs := by
      rw [← List.forall₂_eq_eq_eq]
      exact hfs.imp fun e f h => Prod.ext h.1 h.2
    subst heq
    refine post.bind (post.rebuild_of t _) fun w hw => ?_
    obtain ⟨_, rfl⟩ := of_eq_ok.1 hw
    exact hwithin path _ hp

/-- **Rewriting that leaves sets alone keeps their elements distinct.** -/
theorem transformAt_setsDistinct (hwithin : ∀ p x, Path.EntersSet p → post.holds (visit p x) (Eq x))
    (hkeeps : ∀ p x, x.SetsDistinct → post.holds (visit p x) SetsDistinct) {v : Value} :
    v.SetsDistinct → ∀ path, post.holds (transformAt visit path v) SetsDistinct := by
  induction v using Value.node_induction with
  | null t => exact fun hv path => hkeeps path _ hv
  | unknown t => exact fun hv path => hkeeps path _ hv
  | string t s => exact fun hv path => hkeeps path _ hv
  | number t n => exact fun hv path => hkeeps path _ hv
  | bool t b => exact fun hv path => hkeeps path _ hv
  | list t xs ih =>
    intro hv path
    obtain ⟨hset, hparts⟩ := setsDistinct_known_iff.1 hv
    rw [transformAt]
    cases ht : t.isSet with
    | true  =>
      -- all of the elements come back as they were
      have hstep : ∀ x j, Path.EntersSet (path ++ [t.itemStep j x]) := fun x j => entersSet_itemStep ht path j x
      refine post.bind (post.transformItems_forall₂ 0 fun x _ j =>
        post.transformAt_within hwithin x _ (hstep x j)) fun ys hys => ?_
      rw [List.forall₂_eq_eq_eq] at hys
      subst hys
      refine post.bind (post.rebuild_of t _) fun w hw => ?_
      obtain ⟨_, rfl⟩ := of_eq_ok.1 hw
      exact hkeeps path _ hv
    | false =>
      refine post.bind (post.transformItems_forall₂ (R := fun _ y => y.SetsDistinct) 0 fun x hx j =>
        ih x hx (hparts x hx) _) fun ys hys => ?_
      refine post.bind (post.rebuild_of t _) fun w hw => ?_
      obtain ⟨_, rfl⟩ := of_eq_ok.1 hw
      refine hkeeps path _ (setsDistinct_of_parts ht fun y hy => ?_)
      obtain ⟨x, _, hdistinct⟩ := exists_mem_left hys hy
      exact hdistinct
  | map t es ih =>
    intro hv path
    have hparts := List.forall_mem_map.1 (setsDistinct_known_iff.1 hv).2
    rw [transformAt]
    refine post.bind (post.transformEntries_forall₂ (R := fun _ y => y.SetsDistinct) fun e he =>
      ih e he (hparts e he) _) fun fs hfs => ?_
    refine post.bind (post.rebuild_of t _) fun w hw => ?_
    obtain ⟨hshape, rfl⟩ := of_eq_ok.1 hw
    refine hkeeps path _ (setsDistinct_of_parts (isSet_of_entries hshape) (List.forall_mem_map.2 fun f hf => ?_))
    obtain ⟨e, _, _, hdistinct⟩ := exists_mem_left hfs hf
    exact hdistinct

end Postcondition

theorem Schema.markNode_yields (s : Schema) (config : Value) (p : Path) (x : Value) :
    Yields (s.markNode config p x) fun y => y = .unknown x.ty ∧ s.Computes p ∨ y = x := by
  have hleaves : Yields (leavesNull config p) fun _ => True := fun _ _ => trivial
  unfold markNode
  split
  · exact .ok (.inr rfl)
  · refine hleaves.bind fun isNull _ => .ok ?_
    split
    · rename_i hmarked
      exact .inl ⟨rfl, isComputedAt_iff.1 (Bool.and_eq_true_iff.1 hmarked).2⟩
    · exact .inr rfl

/-- **Marking keeps sets distinct if no attribute within a set is computed.** -/
theorem Schema.markComputedUnknown_setsDistinct {s : Schema} {config proposed : Value}
    (hs : ∀ p, s.Computes p → ¬ Path.EntersSet p) (h : proposed.SetsDistinct) :
    Yields (s.markComputedUnknown config proposed) Value.SetsDistinct := by
  refine Postcondition.ofExcept.transformAt_setsDistinct (fun p x hp => ?_) (fun p x hx => ?_) h []
  · intro y hy
    rcases s.markNode_yields config p x y hy with ⟨_, hc⟩ | rfl
    · exact absurd hp (hs p hc)
    · rfl
  · intro y hy
    rcases s.markNode_yields config p x y hy with ⟨rfl, _⟩ | rfl
    · exact Value.setsDistinct_unknown _
    · exact hx

/-! ## Values that are put together -/

/-- What the constructors make of such values, with attributes replaced and parts taken out. -/
inductive Assembled : Value → Prop
  | null {t : Ty} : t.Canonical → Assembled (.null t)
  | unknown {t : Ty} : t.Canonical → Assembled (.unknown t)
  | string (s : String) : Assembled (.ofString s)
  | number (n : Number) : Assembled (.ofNumber n)
  | float {bits : Nat} {v : Value} : Value.ofFloatBits bits = .ok v → Assembled v
  | bool (b : Bool) : Assembled (.ofBool b)
  | object {attrs : List (String × Value)} : (∀ a ∈ attrs, Assembled a.2) → Assembled (.ofAttributes attrs)
  | tuple {xs : List Value} : (∀ x ∈ xs, Assembled x) → Assembled (.ofTuple xs)
  | list {elem : Ty} {xs : List Value} {v : Value} : elem.Canonical → (∀ x ∈ xs, Assembled x) →
    Value.ofList elem xs = .ok v → Assembled v
  | set {elem : Ty} {xs : List Value} {v : Value} : elem.Canonical → (∀ x ∈ xs, Assembled x) →
    Value.ofSet elem xs = .ok v → Assembled v
  | map {elem : Ty} {es : List (String × Value)} {v : Value} : elem.Canonical → (∀ e ∈ es, Assembled e.2) →
    Value.ofEntries elem es = .ok v → Assembled v
  | setAttribute {v new r : Value} {name : String} : Assembled v → Assembled new → v.setAttribute name new = .ok r →
    Assembled r
  | part {v x : Value} {q : Value.Position} : Assembled v → v.nodeAt? q = some x → Assembled x

namespace Assembled

open Value

theorem setsDistinct {v : Value} (h : Assembled v) : v.SetsDistinct := by
  induction h with
  | null ht => exact setsDistinct_null _
  | unknown ht => exact setsDistinct_unknown _
  | string s => exact setsDistinct_of_parts rfl (List.forall_mem_nil _)
  | number n => exact setsDistinct_of_parts rfl (List.forall_mem_nil _)
  | @float bits v hof =>
    unfold ofFloatBits at hof
    split at hof
    · cases hof
      exact setsDistinct_of_parts rfl (List.forall_mem_nil _)
    · cases hof
  | bool b => exact setsDistinct_of_parts rfl (List.forall_mem_nil _)
  | object _ ih =>
    refine setsDistinct_of_parts rfl (List.forall_mem_map.2 fun e he => ?_)
    exact ih e (Table.mem_of_mem_ofList he)
  | tuple _ ih => exact setsDistinct_of_parts rfl ih
  | list _ _ hof ih =>
    obtain ⟨_, rfl⟩ := of_eq_ok.1 hof
    exact setsDistinct_of_parts rfl ih
  | set _ _ hof ih =>
    obtain ⟨_, rfl⟩ := of_eq_ok.1 hof
    exact setsDistinct_known_iff.2 ⟨fun _ => apart_distinct _, fun x hx => ih x (mem_of_mem_distinct hx)⟩
  | map _ _ hof ih =>
    obtain ⟨_, rfl⟩ := of_eq_ok.1 hof
    refine setsDistinct_of_parts rfl (List.forall_mem_map.2 fun e he => ?_)
    exact ih e (Table.mem_of_mem_ofList he)
  | setAttribute _ _ hset ihv ihnew =>
    obtain ⟨attrs, es, rfl, -, rfl⟩ := setAttribute_eq_ok hset
    have hes := (setsDistinct_known_iff.1 ihv).2
    refine setsDistinct_of_parts rfl (List.forall_mem_map.2 fun e he => ?_)
    rcases Table.mem_of_mem_insert he with rfl | he
    · exact ihnew
    · exact hes e.2 (List.mem_map.2 ⟨e, he, rfl⟩)
  | part _ hn ih => exact ih.nodeAt? hn

/-- **Every value with distinct elements in its sets can be put together.** -/
theorem of_setsDistinct {v : Value} : v.WellFormed → v.SetsDistinct → Assembled v := by
  induction v using Value.node_induction with
  | null t => exact fun h _ => .null h
  | unknown t => exact fun h _ => .unknown h
  | string t s =>
    intro h _
    obtain rfl := shapeFault?_string.1 h.2.1
    exact .string s
  | number t n =>
    intro h _
    obtain rfl := shapeFault?_number.1 h.2.1
    exact .number n
  | bool t b =>
    intro h _
    obtain rfl := shapeFault?_bool.1 h.2.1
    exact .bool b
  | list t xs ih =>
    intro h hd
    obtain ⟨hset, hparts⟩ := setsDistinct_known_iff.1 hd
    have hxs : ∀ x ∈ xs, Assembled x := fun x hx => ih x hx (h.items x hx) (hparts x hx)
    rcases shapeFault?_list.1 h.2.1 with ⟨e, rfl | rfl, -⟩ | rfl
    · have he : e.Canonical := h.1
      exact .list he hxs (of_eq_ok.2 ⟨h.2.1, rfl⟩)
    · have he : e.Canonical := h.1
      have hsame : distinct xs = xs := distinct_of_apart (hset rfl)
      refine .set he hxs ?_
      unfold ofSet
      rw [hsame]
      exact of_eq_ok.2 ⟨h.2.1, rfl⟩
    · exact .tuple hxs
  | map t es ih =>
    intro h hd
    have hparts := (setsDistinct_known_iff.1 hd).2
    have hes : ∀ e ∈ es, Assembled e.2 := fun e he =>
      ih e he (h.entries e he) (hparts e.2 (List.mem_map.2 ⟨e, he, rfl⟩))
    have hsame : Table.ofList es = es := Table.ofList_of_ascending h.ascending
    rcases (shapeFault?_map h.1 h.ascending).1 h.2.1 with ⟨e, rfl, -⟩ | rfl
    · have he : e.Canonical := h.1
      refine .map he hes ?_
      unfold ofEntries
      rw [hsame]
      exact of_eq_ok.2 ⟨h.2.1, rfl⟩
    · have hobject : ofAttributes es = .known (.object (entryTypes es)) (.map es) := by
        unfold ofAttributes
        rw [hsame]
        rfl
      rw [← hobject]
      exact .object hes

end Assembled

/-! ## Obtainable values -/

namespace Obtainable

/-- **The obtainable values with distinct elements in all sets are those that can be put together**, however they were
obtained. -/
theorem setsDistinct_iff_assembled {v : Value} (h : Obtainable (fun _ => False) v) : v.SetsDistinct ↔ Assembled v :=
  ⟨Assembled.of_setsDistinct (h.wellFormed fun _ hu => hu.elim), Assembled.setsDistinct⟩

/-! A badge has a set of tags, and payloads that tell of tags need not tell of different ones. -/

def badgeTy : Ty := .object [("tags", .set .string)]

def badge (tags : List String) : Value :=
  .known badgeTy (.map [("tags", .known (.set .string) (.list (tags.map Value.ofString)))])

theorem two_tags_obtainable : Obtainable (fun _ => False) (badge ["a", "b"]) := by
  have hread : Payload.decode badgeTy (some ⟨[0x81, 0xa4, 0x74, 0x61, 0x67, 0x73, 0x92, 0xa1, 0x61, 0xa1, 0x62], []⟩) =
      .ok (badge ["a", "b"]) := rfl
  exact .decode (by decide) hread

theorem same_tag_obtainable : Obtainable (fun _ => False) (badge ["a", "a"]) := by
  have hread : Payload.decode badgeTy (some ⟨[0x81, 0xa4, 0x74, 0x61, 0x67, 0x73, 0x92, 0xa1, 0x61, 0xa1, 0x61], []⟩) =
      .ok (badge ["a", "a"]) := rfl
  exact .decode (by decide) hread

theorem same_tag_not_setsDistinct : ¬ (badge ["a", "a"]).SetsDistinct := by
  intro h
  have hapart : Value.Apart [.ofString "a", .ofString "a"] := h [0] .string _ rfl
  have hdiffer := hapart 0 1 _ _ Nat.zero_ne_one rfl rfl
  exact absurd hdiffer (by decide)

theorem setsDistinct_iff_assembled_badge :
    Obtainable (fun _ => False) (badge ["a", "b"]) ∧ (badge ["a", "b"]).SetsDistinct ∧
      Obtainable (fun _ => False) (badge ["a", "a"]) ∧ ¬ Assembled (badge ["a", "a"]) := by
  have hset : Value.ofSet .string [.ofString "a", .ofString "b", .ofString "a"] =
      .ok (.known (.set .string) (.list [.ofString "a", .ofString "b"])) := rfl
  have hstring : Ty.string.Canonical := trivial
  have htags : Assembled (.known (.set .string) (.list [.ofString "a", .ofString "b"])) :=
    .set hstring (by simp [Assembled.string]) hset
  have hattrs : ∀ a ∈ [("tags", Value.known (.set .string) (.list [.ofString "a", .ofString "b"]))], Assembled a.2 :=
    List.forall_mem_singleton.2 htags
  have hbadge : Assembled (badge ["a", "b"]) := .object hattrs
  refine ⟨two_tags_obtainable, (setsDistinct_iff_assembled two_tags_obtainable).2 hbadge, same_tag_obtainable, ?_⟩
  intro h
  exact same_tag_not_setsDistinct ((setsDistinct_iff_assembled same_tag_obtainable).2 h)

theorem not_setsDistinct : ¬ ∀ v, Obtainable (fun _ => False) v → v.SetsDistinct :=
  fun h => same_tag_not_setsDistinct (h _ same_tag_obtainable)

end Obtainable

end ProviderProtocol
