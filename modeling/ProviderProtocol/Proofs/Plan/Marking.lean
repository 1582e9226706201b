import ProviderProtocol.Plan
import ProviderProtocol.Proofs.Schema.Attribute
import ProviderProtocol.Proofs.Value.Rewrite
import ProviderProtocol.Proofs.Value.Walk
/-!
# Marking what the provider will compute

`Schema.Marked` says which paths are marked, by the schema and the configuration alone.  Marking a proposal never fails:
it is the rewriting of the proposal by `markWith` (`markComputedUnknown_eq_ok`), since every path of the proposal fits
the common type and so is no fault in the configuration.  `Marking` relates a proposal to what has exactly the marked
nodes replaced, and the result of marking is related so (`markComputedUnknown_exact`).
-/
namespace ProviderProtocol.Schema

/-- The path leads to an attribute that the provider computes. -/
def Computes (s : Schema) (p : Path) : Prop :=
  ∃ a, s.attributeAt? p = some a ∧ (a.mode = .computed ∨ a.mode = .optionalComputed)

/-- The walk along the path ends at a null, or before the end of the path at a null or unknown value. -/
def LeavesNull (config : Value) (p : Path) : Prop :=
  (∃ t, config.walkDeepest p = .ok (.reached (.null t))) ∨ ∃ v, config.walkDeepest p = .ok (.blocked v)

def Marked (s : Schema) (config : Value) (p : Path) : Prop := p ≠ [] ∧ s.Computes p ∧ LeavesNull config p

/-- `r` is the proposal with exactly the marked nodes replaced, each by an unknown of its own type. -/
structure Marking (s : Schema) (config proposed r : Value) : Prop where
  replaced : ∀ q p x, proposed.node? q = some (p, x) → s.Marked config p → r.nodeAt? q = some (.unknown x.ty)
  kept : ∀ q p x, proposed.node? q = some (p, x) → (∀ p₁ p₂, p = p₁ ++ p₂ → ¬ s.Marked config p₁) →
    ∃ w, r.nodeAt? q = some w ∧ x.SameNode w
  /-- No other nodes: each stands in the position of a node that is not below a marked one. -/
  only : ∀ q w, r.nodeAt? q = some w →
    ∃ p x, proposed.node? q = some (p, x) ∧ ∀ p₁ p₂, p = p₁ ++ p₂ → p₂ ≠ [] → ¬ s.Marked config p₁

/-! ## Deciding whether a path is marked -/

theorem isComputedAt_iff {s : Schema} {p : Path} : s.isComputedAt p = true ↔ s.Computes p := by
  unfold isComputedAt Computes
  cases s.attributeAt? p with
  | none   => simp
  | some a => simp [Attribute.isComputed_iff]

theorem leavesNull_iff {config : Value} {p : Path} : leavesNull config p = .ok true ↔ LeavesNull config p := by
  unfold leavesNull LeavesNull
  cases config.walkDeepest p with
  | error why => simp
  | ok w =>
    cases w with
    | reached v => cases v <;> simp [Value.isNull]
    | blocked v => simp
    | missing v => simp

instance (config : Value) (p : Path) : Decidable (LeavesNull config p) :=
  match h : leavesNull config p with
  | .ok true  => .isTrue (leavesNull_iff.1 h)
  | .ok false => .isFalse fun hn => by rw [leavesNull_iff.2 hn] at h; cases h
  | .error _  => .isFalse fun hn => by rw [leavesNull_iff.2 hn] at h; cases h

instance (s : Schema) (p : Path) : Decidable (s.Computes p) := decidable_of_iff _ isComputedAt_iff

instance (s : Schema) (config : Value) (p : Path) : Decidable (s.Marked config p) :=
  decidable_of_iff (p.isEmpty = false ∧ s.Computes p ∧ LeavesNull config p) (by
    unfold Marked
    rw [List.isEmpty_eq_false_iff])

/-- What marking makes of one node, as a function that cannot fail. -/
def markWith (s : Schema) (config : Value) (p : Path) (v : Value) : Value :=
  if s.Marked config p then .unknown v.ty else v

/-! ## Marking as a rewriting -/

section

variable {s : Schema} {config : Value}

theorem markWith_of_marked {p : Path} (h : s.Marked config p) (v : Value) : s.markWith config p v = .unknown v.ty :=
  if_pos h

theorem markWith_of_not_marked {p : Path} (h : ¬ s.Marked config p) (v : Value) : s.markWith config p v = v := if_neg h

theorem markWith_keeps : Value.Keeps (s.markWith config) where
  ty p v := by
    by_cases h : s.Marked config p
    · rw [markWith_of_marked h]
      rfl
    · rw [markWith_of_not_marked h]
  wellFormed p v hv := by
    by_cases h : s.Marked config p
    · rw [markWith_of_marked h]
      exact hv.canonical
    · rw [markWith_of_not_marked h]
      exact hv

/-- Along a path that fits the configuration there is no fault. -/
theorem leavesNull_eq_ok {p : Path} {u : Ty} (hc : config.WellFormed) (hp : config.ty.along? p = some u) :
    leavesNull config p = .ok (decide (LeavesNull config p)) := by
  obtain ⟨w, hw, _⟩ := Value.walkFrom_sound p hc hp
  have hb : ∃ b, leavesNull config p = .ok b := by
    unfold leavesNull Value.walkDeepest
    rw [hw]
    cases w with
    | reached v => exact ⟨_, rfl⟩
    | blocked v => exact ⟨_, rfl⟩
    | missing v => exact ⟨_, rfl⟩
  obtain ⟨b, hb⟩ := hb
  rw [hb]
  cases b with
  | true  => rw [decide_eq_true (leavesNull_iff.1 hb)]
  | false =>
    have hn : ¬ LeavesNull config p := fun h => by
      rw [leavesNull_iff.2 h] at hb
      cases hb
    rw [decide_eq_false hn]

theorem markNode_eq_ok {p : Path} {v : Value} {u : Ty} (hc : config.WellFormed) (hp : config.ty.along? p = some u) :
    s.markNode config p v = .ok (s.markWith config p v) := by
  cases p with
  | nil =>
    rw [markWith_of_not_marked fun h => h.1 rfl]
    rfl
  | cons step p =>
    rw [markNode, leavesNull_eq_ok hc hp]
    have hiff : (decide (LeavesNull config (step :: p)) && s.isComputedAt (step :: p)) = true ↔
        s.Marked config (step :: p) := by
      rw [Bool.and_eq_true, decide_eq_true_iff, isComputedAt_iff]
      exact ⟨fun h => ⟨List.cons_ne_nil _ _, h.2, h.1⟩, fun h => ⟨h.2.2, h.2.1⟩⟩
    by_cases h : s.Marked config (step :: p)
    · rw [markWith_of_marked h]
      exact congrArg Except.ok (if_pos (hiff.2 h))
    · rw [markWith_of_not_marked h]
      exact congrArg Except.ok (if_neg fun hm => h (hiff.1 hm))

theorem markComputedUnknown_eq_ok {proposed : Value} (hc : config.WellFormed) (hp : proposed.WellFormed)
    (hty : proposed.ty = config.ty) :
    s.markComputedUnknown config proposed = .ok (Value.rewriteAt (s.markWith config) [] proposed) := by
  refine markWith_keeps.transformAt_eq_ok (fun p w hpath _ => ?_) [] rfl hp
  rw [hty] at hpath
  exact markNode_eq_ok hc hpath

/-! ## The nodes of the result -/

/-- Above a computed attribute there is none, so neither is there a marked node above a marked one. -/
theorem Computes.not_above {p₁ p₂ : Path} (h : s.Computes (p₁ ++ p₂)) (hne : p₂ ≠ []) : ¬ s.Computes p₁ := by
  rintro ⟨a, ha, _⟩
  obtain ⟨b, hb, _⟩ := h
  rw [attributeAt?_eq_none_of_append hb hne] at ha
  cases ha

theorem marking_rewriteAt (proposed : Value) :
    s.Marking config proposed (Value.rewriteAt (s.markWith config) [] proposed) where
  replaced q p x hn hm := by
    have habove : ∀ p₁ p₂, p = p₁ ++ p₂ → p₂ ≠ [] → ∀ w, s.markWith config ([] ++ p₁) w = w := by
      rintro p₁ p₂ rfl hne w
      exact markWith_of_not_marked (fun h => hm.2.1.not_above hne h.2.1) w
    rw [Value.nodeAt?_rewriteAt hn habove, Value.rewriteAt_eq]
    show some (s.markWith config p _) = _
    rw [markWith_of_marked hm, ← markWith_keeps.rewriteAt_ty p x, Value.rewriteAt_eq, markWith_of_marked hm]
    rfl
  kept q p x hn hm := by
    have habove : ∀ p₁ p₂, p = p₁ ++ p₂ → p₂ ≠ [] → ∀ w, s.markWith config ([] ++ p₁) w = w :=
      fun p₁ p₂ he _ w => markWith_of_not_marked (hm p₁ p₂ he) w
    refine ⟨_, Value.nodeAt?_rewriteAt hn habove, ?_⟩
    rw [Value.rewriteAt_eq]
    show x.SameNode (s.markWith config p _)
    rw [markWith_of_not_marked (hm p [] (List.append_nil p).symm)]
    exact Value.sameNode_rebuilt _ x
  only q w hw := by
    have hf : ∀ p u, s.markWith config p u = u ∨ (s.markWith config p u).children = [] := by
      intro p u
      by_cases h : s.Marked config p
      · rw [markWith_of_marked h]
        exact .inr rfl
      · exact .inl (markWith_of_not_marked h u)
    obtain ⟨p, x, hn, habove⟩ := Value.node?_of_nodeAt?_rewriteAt hf hw
    refine ⟨p, x, hn, fun p₁ p₂ he hne hm => ?_⟩
    obtain ⟨u, hu, hchildren⟩ := habove p₁ p₂ he hne
    have hunknown : s.markWith config p₁ u = .unknown u.ty := markWith_of_marked hm u
    rw [List.nil_append, hunknown] at hu
    rw [← hu] at hchildren
    exact hchildren rfl

/-- **Planning marks exactly the computed attributes that the configuration leaves null.**  It never fails. -/
theorem markComputedUnknown_exact (s : Schema) {config proposed : Value} (hc : config.WellFormed)
    (hp : proposed.WellFormed) (hct : config.ty = s.valueType) (hpt : proposed.ty = s.valueType) :
    ∃ r, s.markComputedUnknown config proposed = .ok r ∧ s.Marking config proposed r :=
  ⟨_, markComputedUnknown_eq_ok hc hp (hpt.trans hct.symm), marking_rewriteAt proposed⟩

end

/-! ### Machines with disks

A machine has an `id` of its own and a set of disks, each with an `id` that the provider computes and a `label`. -/

def machineSchema : Schema :=
  ((Schema.new 0).addAttribute "id" (.computed .string)).addBlock "disk" (.new .set)
    ((Block.empty.addAttribute "id" (.computed .string)).addAttribute "label" (.optional .string))

def diskTy : Ty := .object [("id", .string), ("label", .string)]

def disk (label : Value) : Value := .known diskTy (.map [("id", .null .string), ("label", label)])

def machine (id : Value) (disks : List Value) : Value :=
  .known (.object [("disk", .set diskTy), ("id", .string)])
    (.map [("disk", .known (.set diskTy) (.list disks)), ("id", id)])

/-- The configuration has one of the two disks that are proposed. -/
theorem markComputedUnknown_exact_machine :
    let config := machine (.null .string) [disk (.ofString "a")]
    let proposed := machine (.ofString "m-1") [disk (.ofString "a"), disk (.ofString "b")]
    config.WellFormed ∧ proposed.WellFormed ∧ config.ty = machineSchema.valueType ∧
      proposed.ty = machineSchema.valueType ∧
      ∃ r, machineSchema.markComputedUnknown config proposed = .ok r ∧ machineSchema.Marking config proposed r :=
  ⟨by decide, by decide, by decide, by decide,
    markComputedUnknown_exact machineSchema (by decide) (by decide) (by decide) (by decide)⟩

end ProviderProtocol.Schema
