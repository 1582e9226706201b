import ProviderProtocol.Proofs.Plan.Marking
import ProviderProtocol.Proofs.Value.OwnPath
/-!
# Planning what is to be created

What is to be created has its configuration as the proposal.  A computed attribute that is null there becomes unknown
exactly if every set item around it is known throughout (`create_marks_iff_keysKnown`): an item with an unknown anywhere
equals nothing, so the look-up does not find it in the configuration it came from, and what is null in it stays null
(`create_keeps_null`).
-/
namespace ProviderProtocol.Schema

/-- A null node is left null by its own value exactly if the set items on its path are known throughout. -/
theorem leavesNull_own_iff {c : Value} (hc : c.WellFormed) {q : Value.Position} {p : Path} {t : Ty}
    (hn : c.node? q = some (p, .null t)) : LeavesNull c p ↔ p.KeysKnown := by
  by_cases hk : p.KeysKnown
  · obtain ⟨y, hy, hyx⟩ := Value.walkFrom_own p (.inl rfl) hc hc hn hk
    obtain rfl := hyx.null
    exact ⟨fun _ => hk, fun _ => .inl ⟨t, hy⟩⟩
  · obtain ⟨y, hy⟩ := Value.walkFrom_own_missing p (.inl rfl) hc hc hn hk
    refine ⟨fun h => ?_, fun h => absurd h hk⟩
    unfold LeavesNull Value.walkDeepest at h
    rw [hy] at h
    rcases h with ⟨u, hu⟩ | ⟨v, hv⟩
    · cases hu
    · cases hv

/-- **A computed attribute left null by the configuration becomes unknown exactly if the set items around it are known
throughout.**  Otherwise it stays null. -/
theorem create_marks_iff_keysKnown (s : Schema) {c : Value} (hc : c.WellFormed) :
    ∃ r, s.markComputedUnknown c c = .ok r ∧
      ∀ q p t, c.node? q = some (p, .null t) → p ≠ [] → s.Computes p →
        (p.KeysKnown → r.nodeAt? q = some (.unknown t)) ∧ (¬ p.KeysKnown → r.nodeAt? q = some (.null t)) := by
  have hr : s.Marking c c (Value.rewriteAt (s.markWith c) [] c) := marking_rewriteAt c
  refine ⟨_, markComputedUnknown_eq_ok hc hc rfl, fun q p t hn hne hcomp => ⟨fun hk => ?_, fun hk => ?_⟩⟩
  · exact hr.replaced q p _ hn ⟨hne, hcomp, (leavesNull_own_iff hc hn).2 hk⟩
  · have hfree : ∀ p₁ p₂, p = p₁ ++ p₂ → ¬ s.Marked c p₁ := by
      rintro p₁ p₂ rfl hm
      cases p₂ with
      | nil =>
        rw [List.append_nil] at hn hk
        exact hk ((leavesNull_own_iff hc hn).1 hm.2.2)
      | cons step p₂ => exact hcomp.not_above (List.cons_ne_nil _ _) hm.2.1
    obtain ⟨w, hw, hsame⟩ := hr.kept q p _ hn hfree
    have hnull : .null t = w := hsame
    rw [hw, hnull]

/-- Two disks of one machine: the label of the first is known, that of the second is not. -/
theorem create_marks_iff_keysKnown_machine :
    let c := machine (.null .string) [disk (.ofString "a"), disk (.unknown .string)]
    c.WellFormed ∧ ∃ r, machineSchema.markComputedUnknown c c = .ok r ∧
      r.nodeAt? [0, 0, 0] = some (.unknown .string) ∧ r.nodeAt? [0, 1, 0] = some (.null .string) := by
  refine ⟨by decide, ?_⟩
  obtain ⟨r, hr, h⟩ := create_marks_iff_keysKnown machineSchema
    (show (machine (.null .string) [disk (.ofString "a"), disk (.unknown .string)]).WellFormed by decide)
  exact ⟨r, hr, (h [0, 0, 0] _ _ rfl (List.cons_ne_nil _ _) (by decide)).1 (by decide),
    (h [0, 1, 0] _ _ rfl (List.cons_ne_nil _ _) (by decide)).2 (by decide)⟩

/-- So a proposal that is the configuration itself can keep a computed attribute null. -/
theorem create_keeps_null :
    ¬ ∀ (s : Schema) (c : Value), c.WellFormed → c.ty = s.valueType →
      ∃ r, s.markComputedUnknown c c = .ok r ∧
        ∀ q p t, c.node? q = some (p, .null t) → p ≠ [] → s.Computes p → ∃ u, r.nodeAt? q = some (.unknown u) := by
  intro h
  obtain ⟨r, hr, hall⟩ := h machineSchema (machine (.null .string) [disk (.unknown .string)]) (by decide) (by decide)
  have hmark : machineSchema.markComputedUnknown (machine (.null .string) [disk (.unknown .string)])
      (machine (.null .string) [disk (.unknown .string)]) =
        .ok (machine (.unknown .string) [disk (.unknown .string)]) := rfl
  rw [hmark] at hr
  cases hr
  obtain ⟨u, hu⟩ := hall [0, 0, 0] _ _ rfl (List.cons_ne_nil _ _) (by decide)
  cases hu

end ProviderProtocol.Schema
