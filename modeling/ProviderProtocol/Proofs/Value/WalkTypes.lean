import ProviderProtocol.Proofs.Value.Walk
/-!
# Walks and the types along them

What a walk can come to is settled by the type of the value, up to what is null, unknown or lacking on the way
(`walks_follow_types`).  A path fits the type of the value; or it has a first step that no value of the type reached
admits; or it has an index outside of a tuple.
-/
namespace ProviderProtocol

/-! ## Steps that a type admits -/

/-- Values of the type are entered by such a step, though they may lack what it selects. -/
def Ty.admits : Ty → Step → Bool
  | .object attrs, .attribute name => Table.has name attrs
  | .map _, .key _                 => true
  | .list _, .index _              => true
  | .tuple _, .index _             => true
  | .set _, .element _             => true
  | _, _                           => false

/-- The fault of a walk at a step that is not admitted. -/
def PathFault.unfit (p : Path) : Ty → Step → PathFault
  | .object attrs, .attribute name => .noAttribute p (.object attrs) name
  | t, _                           => .step p t

/-- Of such types there are values that lack what an admitted step selects. -/
def Ty.mayLack : Ty → Bool
  | .list _ | .tuple _ | .map _ | .set _ => true
  | _                                    => false

def Ty.Outside (ts : List Ty) (i : Int) : Prop := i < 0 ∨ ts.length ≤ i.toNat

/-- A step that is admitted and still fits no type is an index outside of a tuple. -/
theorem Ty.step?_eq_none {t : Ty} {step : Step} (h : t.step? step = none) :
    t.admits step = false ∨ ∃ ts i, t = .tuple ts ∧ step = .index i ∧ Outside ts i := by
  unfold step? at h
  split at h
  · refine .inl ?_
    rw [admits, Table.has, h]
    rfl
  · cases h
  · cases h
  · rename_i ts i
    refine .inr ⟨ts, i, rfl, rfl, ?_⟩
    split at h
    · exact .inl ‹_›
    · exact .inr (List.getElem?_eq_none_iff.1 h)
  · cases h
  · refine .inl ?_
    unfold admits
    split <;> simp_all

/-- On the way along the path, this is the type reached when this step is next. -/
def Ty.Meets (t : Ty) (p before : Path) (u : Ty) (step : Step) : Prop :=
  t.along? before = some u ∧ ∃ rest, p = before ++ step :: rest

/-- The path fits, or there is a first step at which it does not. -/
theorem Ty.along?_cases : ∀ (t : Ty) (p : Path),
    (∃ u, t.along? p = some u) ∨ ∃ before u step, t.Meets p before u step ∧ u.step? step = none
  | t, []        => .inl ⟨t, rfl⟩
  | t, step :: p => by
    cases hs : t.step? step with
    | none   => exact .inr ⟨[], t, step, ⟨rfl, p, rfl⟩, hs⟩
    | some u =>
      have hcons : ∀ q, t.along? (step :: q) = u.along? q := fun q => by rw [along?, hs, Option.bind_some]
      rcases along?_cases u p with ⟨w, hw⟩ | ⟨before, w, step', ⟨hw, rest, rfl⟩, hnone⟩
      · exact .inl ⟨w, (hcons p).trans hw⟩
      · exact .inr ⟨step :: before, w, step', ⟨(hcons before).trans hw, rest, rfl⟩, hnone⟩

namespace Value

/-! ## One step -/

section

variable (full : Path) {t : Ty} {step : Step} {c : Content}

theorem child_attribute (attrs : List (String × Ty)) (name : String) (es : List (String × Value)) :
    child full (.object attrs) (.attribute name) (.map es) =
      if Table.has name attrs then .ok (Table.find? name es) else .error (.noAttribute full (.object attrs) name) := rfl

theorem Shaped.child_unfit (h : Shaped t c) (hs : t.admits step = false) :
    child full t step c = .error (.unfit full t step) := by
  cases h with
  | object es =>
    cases step with
    | key k     => rfl
    | index i   => rfl
    | element k => rfl
    | _ =>
      rename_i name
      have hundeclared : ¬ Table.has name (entryTypes es) = true := Bool.not_eq_true _ ▸ hs
      rw [child_attribute, if_neg hundeclared]
      rfl
  | _ => cases step <;> first | rfl | cases hs

theorem Shaped.child_outside {ts : List Ty} {i : Int} (h : Shaped (.tuple ts) c) (hi : Ty.Outside ts i) :
    child full (.tuple ts) (.index i) c = .ok none := by
  cases h with
  | tuple xs =>
    have hnone : (if i < 0 then none else xs[i.toNat]?) = none := by
      split
      · rfl
      · rename_i hneg
        rw [List.getElem?_eq_none_iff, ← List.length_map Value.ty]
        exact hi.resolve_left hneg
    exact congrArg Except.ok hnone

/-- Objects have what their types declare. -/
theorem Shaped.mayLack (h : Shaped t c) (hc : child full t step c = .ok none) : t.mayLack = true := by
  cases h with
  | object es =>
    cases step with
    | key k     => cases hc
    | index i   => cases hc
    | element k => cases hc
    | _ =>
      rename_i name
      rw [child_attribute] at hc
      split at hc
      · rename_i hhas
        rw [Table.has, entryTypes, Table.find?_map, Except.ok.inj hc] at hhas
        cases hhas
      · cases hc
  | string s => cases step <;> cases hc
  | number n => cases step <;> cases hc
  | bool b   => cases step <;> cases hc
  | _        => rfl

end

/-! ## Whole walks -/

/-- The walks that are no fault, step by step. -/
inductive Walks (full : Path) : Path → Value → Walk → Prop
  | reached {v : Value} : Walks full [] v (.reached v)
  | blocked {step : Step} {p : Path} {v : Value} : v.content? = none → Walks full (step :: p) v (.blocked v)
  | missing {step : Step} {p : Path} {t : Ty} {c : Content} : child full t step c = .ok none →
    Walks full (step :: p) (known t c) (.missing (known t c))
  | next {step : Step} {p : Path} {t : Ty} {c : Content} {x : Value} {w : Walk} :
    child full t step c = .ok (some x) → Walks full p x w → Walks full (step :: p) (known t c) w

theorem walkFrom_of_error {full p : Path} {t : Ty} {step : Step} {c : Content} {fault : PathFault}
    (h : child full t step c = .error fault) : walkFrom full (step :: p) (known t c) = .error fault := by
  rw [walkFrom, h]

theorem walks_of_eq_ok {full : Path} : ∀ {p : Path} {v : Value} {w : Walk}, walkFrom full p v = .ok w → Walks full p v w
  | [], v, w, h                 => by
    cases h
    exact .reached
  | step :: p, .null t, w, h    => by
    cases h
    exact .blocked rfl
  | step :: p, .unknown t, w, h => by
    cases h
    exact .blocked rfl
  | step :: p, .known t c, w, h => by
    cases hc : child full t step c with
    | error fault =>
      rw [walkFrom_of_error hc] at h
      cases h
    | ok o =>
      cases o with
      | none   =>
        rw [walkFrom_of_none hc] at h
        cases h
        exact .missing hc
      | some x =>
        rw [walkFrom_of_some hc] at h
        exact .next hc (walks_of_eq_ok h)

/-- A walk that has got to a node goes on there; any other is over. -/
def onward (full rest : Path) : Walk → Except PathFault Walk
  | .reached x => walkFrom full rest x
  | w          => .ok w

namespace Walks

variable {full p : Path} {v x : Value} {w : Walk}

theorem walkFrom_append (h : Walks full p v w) (rest : Path) : walkFrom full (p ++ rest) v = onward full rest w := by
  induction h with
  | reached       => rfl
  | blocked hnone => exact walkFrom_of_content? hnone
  | missing hc    => exact walkFrom_of_none hc
  | next hc _ ih  => exact (walkFrom_of_some hc).trans ih

theorem eq_ok (h : Walks full p v w) : walkFrom full p v = .ok w := by
  have happend := h.walkFrom_append []
  rw [List.append_nil] at happend
  rw [happend]
  cases w <;> rfl

/-- The whole path is for the fault only. -/
theorem path (h : Walks full p v w) (full' : Path) : Walks full' p v w := by
  induction h with
  | reached       => exact .reached
  | blocked hnone => exact .blocked hnone
  | missing hc    => exact .missing (child_path hc)
  | next hc _ ih  => exact .next (child_path hc) ih

/-- A walk is blocked where it has got to a node without content. -/
theorem blocked_at (h : Walks full p v (.blocked x)) :
    x.content? = none ∧ ∃ before step rest, p = before ++ step :: rest ∧ Walks full before v (.reached x) := by
  generalize hw : Walk.blocked x = w at h
  induction h with
  | reached       => cases hw
  | blocked hnone =>
    cases hw
    exact ⟨hnone, [], _, _, rfl, .reached⟩
  | missing hc    => cases hw
  | next hc _ ih  =>
    obtain ⟨hnone, before, step, rest, rfl, hbefore⟩ := ih hw
    exact ⟨hnone, _ :: before, step, rest, rfl, .next hc hbefore⟩

/-- Something is missing where the walk has got to a collection that lacks it. -/
theorem missing_at (hv : v.WellFormed) (h : Walks full p v (.missing x)) :
    ∃ t c before step rest, x = known t c ∧ t.mayLack = true ∧ child full t step c = .ok none ∧
      p = before ++ step :: rest ∧ Walks full before v (.reached x) := by
  generalize hw : Walk.missing x = w at h
  induction h with
  | reached    => cases hw
  | blocked _  => cases hw
  | missing hc =>
    cases hw
    exact ⟨_, _, [], _, _, rfl, hv.shaped.mayLack full hc, hc, rfl, .reached⟩
  | next hc _ ih =>
    obtain ⟨t, c, before, step, rest, hx, ht, hnone, rfl, hbefore⟩ := ih (hv.of_child hc) hw
    exact ⟨t, c, _ :: before, step, rest, hx, ht, hnone, rfl, .next hc hbefore⟩

end Walks

/-- The path leads to a value that is neither null nor unknown. -/
def KnownAt (v : Value) (p : Path) : Prop := ∃ t c, v.walkDeepest p = .ok (.reached (known t c))

/-- The walk ends before the path does, at a null or unknown value or where something is lacking. -/
def StopsShort (v : Value) (p : Path) : Prop :=
  ∃ x, v.walkDeepest p = .ok (.blocked x) ∨ v.walkDeepest p = .ok (.missing x)

section

variable {v : Value} (hv : v.WellFormed) {p before : Path} {u : Ty} {step : Step} (hmeets : v.ty.Meets p before u step)

include hv hmeets

/-- If the path leads to a known value before the step, the walk goes on in it; else it has ended before. -/
theorem walk_meets :
    (∃ c rest, (known u c).WellFormed ∧ v.walkDeepest before = .ok (.reached (known u c)) ∧
      v.walkDeepest p = walkFrom p (step :: rest) (known u c)) ∨ ¬ v.KnownAt before ∧ v.StopsShort p := by
  obtain ⟨hfits, rest, rfl⟩ := hmeets
  obtain ⟨w, hw, hreached⟩ := walkFrom_sound before hv hfits
  have hon : v.walkDeepest (before ++ step :: rest) = onward (before ++ step :: rest) (step :: rest) w :=
    ((walks_of_eq_ok hw).path _).walkFrom_append (step :: rest)
  unfold KnownAt StopsShort
  rw [hon, walkDeepest, hw]
  cases w with
  | blocked x => exact .inr ⟨(fun ⟨t, c, h⟩ => by cases h), x, .inl rfl⟩
  | missing x => exact .inr ⟨(fun ⟨t, c, h⟩ => by cases h), x, .inr rfl⟩
  | reached x =>
    obtain ⟨rfl, hx⟩ := hreached x rfl
    cases x with
    | null t    => exact .inr ⟨(fun ⟨t, c, h⟩ => by cases h), _, .inl rfl⟩
    | unknown t => exact .inr ⟨(fun ⟨t, c, h⟩ => by cases h), _, .inl rfl⟩
    | known t c => exact .inl ⟨c, rest, hx, rfl, rfl⟩

theorem walk_unfit (hs : u.admits step = false) :
    (v.KnownAt before → v.walkDeepest p = .error (.unfit p u step)) ∧ (¬ v.KnownAt before → v.StopsShort p) := by
  rcases walk_meets hv hmeets with ⟨c, rest, hc, hbefore, hp⟩ | ⟨hnone, hstops⟩
  · refine ⟨fun _ => ?_, fun hnone => absurd ⟨u, c, hbefore⟩ hnone⟩
    rw [hp, walkFrom_of_error (hc.shaped.child_unfit _ hs)]
  · exact ⟨fun h => absurd h hnone, fun _ => hstops⟩

end

theorem walk_outside {v : Value} (hv : v.WellFormed) {p before : Path} {ts : List Ty} {i : Int}
    (hmeets : v.ty.Meets p before (.tuple ts) (.index i)) (hi : Ty.Outside ts i) :
    (v.KnownAt before → ∃ x, v.walkDeepest before = .ok (.reached x) ∧ v.walkDeepest p = .ok (.missing x)) ∧
      (¬ v.KnownAt before → v.StopsShort p) := by
  rcases walk_meets hv hmeets with ⟨c, rest, hc, hbefore, hp⟩ | ⟨hnone, hstops⟩
  · refine ⟨fun _ => ⟨_, hbefore, ?_⟩, fun hnone => absurd ⟨_, c, hbefore⟩ hnone⟩
    rw [hp, walkFrom_of_none (hc.shaped.child_outside _ hi)]
  · exact ⟨fun h => absurd h hnone, fun _ => hstops⟩

theorem walk_blocked {v x : Value} {p : Path} (h : v.walkDeepest p = .ok (.blocked x)) :
    x.content? = none ∧ ∃ before step rest, p = before ++ step :: rest ∧ v.walkDeepest before = .ok (.reached x) := by
  obtain ⟨hnone, before, step, rest, hp, hbefore⟩ := (walks_of_eq_ok h).blocked_at
  exact ⟨hnone, before, step, rest, hp, (hbefore.path before).eq_ok⟩

theorem walk_missing {v x : Value} (hv : v.WellFormed) {p : Path} (h : v.walkDeepest p = .ok (.missing x)) :
    ∃ t c before step rest, x = known t c ∧ t.mayLack = true ∧ child p t step c = .ok none ∧
      p = before ++ step :: rest ∧ v.walkDeepest before = .ok (.reached x) := by
  obtain ⟨t, c, before, step, rest, hx, ht, hnone, hp, hbefore⟩ := (walks_of_eq_ok h).missing_at hv
  exact ⟨t, c, before, step, rest, hx, ht, hnone, hp, (hbefore.path before).eq_ok⟩

/-- **Walks follow types.**  Every path fits the type of the value, or has a first step that is not admitted, or an
index outside of a tuple before that.  If it fits, the walk is no fault, and what it gets to is of the type that the
path leads to.  A step that is not admitted is a fault at a known value and never gets anywhere; an index outside of a
tuple is missing, whatever follows.  A walk is blocked at a null or unknown value only, and something is missing only
of a list, set, tuple or map that lacks it, never of an object. -/
theorem walks_follow_types {v : Value} (hv : v.WellFormed) (p : Path) :
    ((∃ u, v.ty.along? p = some u) ∨ (∃ before u step, v.ty.Meets p before u step ∧ u.admits step = false) ∨
      ∃ before ts i, v.ty.Meets p before (.tuple ts) (.index i) ∧ Ty.Outside ts i) ∧
    (∀ u, v.ty.along? p = some u → ∃ w, v.walkDeepest p = .ok w ∧ ∀ x, w = .reached x → x.ty = u) ∧
    (∀ before u step, v.ty.Meets p before u step → u.admits step = false →
      (v.KnownAt before → v.walkDeepest p = .error (.unfit p u step)) ∧ (¬ v.KnownAt before → v.StopsShort p)) ∧
    (∀ before ts i, v.ty.Meets p before (.tuple ts) (.index i) → Ty.Outside ts i →
      (v.KnownAt before → ∃ x, v.walkDeepest before = .ok (.reached x) ∧ v.walkDeepest p = .ok (.missing x)) ∧
      (¬ v.KnownAt before → v.StopsShort p)) ∧
    (∀ x, v.walkDeepest p = .ok (.blocked x) →
      x.content? = none ∧ ∃ before step rest, p = before ++ step :: rest ∧ v.walkDeepest before = .ok (.reached x)) ∧
    (∀ x, v.walkDeepest p = .ok (.missing x) →
      ∃ t c before step rest, x = known t c ∧ t.mayLack = true ∧ child p t step c = .ok none ∧
        p = before ++ step :: rest ∧ v.walkDeepest before = .ok (.reached x)) := by
  refine ⟨?_, ?_, ?_, ?_, ?_, ?_⟩
  · rcases Ty.along?_cases v.ty p with hfits | ⟨before, u, step, hmeets, hnone⟩
    · exact .inl hfits
    · rcases Ty.step?_eq_none hnone with hs | ⟨ts, i, rfl, rfl, hi⟩
      · exact .inr (.inl ⟨before, u, step, hmeets, hs⟩)
      · exact .inr (.inr ⟨before, ts, i, hmeets, hi⟩)
  · intro u hu
    obtain ⟨w, hw, hreached⟩ := walkFrom_sound p hv hu
    exact ⟨w, hw, fun x hx => (hreached x hx).1⟩
  · exact fun before u step hmeets hs => walk_unfit hv hmeets hs
  · exact fun before ts i hmeets hi => walk_outside hv hmeets hi
  · exact fun x hx => walk_blocked hx
  · exact fun x hx => walk_missing hv hx

/-! ### A pair and its tags

Of the pair the walk gets everywhere; of the tags nothing is known. -/

def tagged : Value :=
  .known (.object [("pair", .tuple [.string, .bool]), ("tags", .map .string)]) (.map [
    ("pair", .known (.tuple [.string, .bool]) (.list [.ofString "a", .null .bool])),
    ("tags", .unknown (.map .string))])

theorem walks_follow_types_tagged :
    tagged.WellFormed ∧
      tagged.walkDeepest [.attribute "pair", .key "a"] =
        .error (.unfit [.attribute "pair", .key "a"] (.tuple [.string, .bool]) (.key "a")) ∧
      (∃ x, tagged.walkDeepest [.attribute "pair"] = .ok (.reached x) ∧
        tagged.walkDeepest [.attribute "pair", .index 2, .key "a"] = .ok (.missing x)) ∧
      tagged.StopsShort [.attribute "tags", .index 0] := by
  have hv : tagged.WellFormed := by decide
  have hpair : tagged.KnownAt [.attribute "pair"] := ⟨_, _, rfl⟩
  have htags : ¬ tagged.KnownAt [.attribute "tags"] := fun ⟨t, c, h⟩ => by cases h
  refine ⟨hv, ?_, ?_, ?_⟩
  · exact ((walks_follow_types hv _).2.2.1 [.attribute "pair"] _ _ ⟨rfl, [], rfl⟩ rfl).1 hpair
  · exact ((walks_follow_types hv _).2.2.2.1 [.attribute "pair"] _ _ ⟨rfl, _, rfl⟩ (.inr (by decide))).1 hpair
  · exact ((walks_follow_types hv _).2.2.1 [.attribute "tags"] (.map .string) _ ⟨rfl, [], rfl⟩ rfl).2 htags

end Value

end ProviderProtocol
