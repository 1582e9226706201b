import ProviderProtocol.Proofs.StateStore.Runs
/-!
# Locks exclude each other

What the clients of a served memory can rely on after any run (`LocksExclude`): a state is locked by one client at a
time, and only the id that this client was given unlocks it.  Requests are accepted by what the memory holds, the
memory matches the history of the run, and the history is orderly.
-/
namespace ProviderProtocol.ServedMemory

open Server

variable {served : ServedMemory σ}

/-! ## Which requests are accepted -/

theorem lockState_accepted_iff {req : Wire.LockRequest} (hown : req.typeName ∈ served.names) (s : σ) :
    reportsError ((served.server.lockState req).run s).1.diagnostics = false ↔
      ∃ r, (served.memory s).lock req.id req.operation = .ok r := by
  obtain ⟨schema, h⟩ := served.registered _ hown
  rw [lockState_store h, ← memory]
  cases (served.memory s).lock req.id req.operation with
  | ok r => exact ⟨fun _ => ⟨r, rfl⟩, fun _ => rfl⟩
  | error fault =>
    refine fault.refused ?_
    rintro ⟨r, hr⟩
    cases hr

theorem unlockState_accepted_iff {req : Wire.UnlockRequest} (hown : req.typeName ∈ served.names) (s : σ) :
    reportsError ((served.server.unlockState req).run s).1.diagnostics = false ↔
      ∃ m, (served.memory s).unlock req.id req.lockId = .ok m := by
  obtain ⟨schema, h⟩ := served.registered _ hown
  rw [unlockState_store h, ← memory]
  cases (served.memory s).unlock req.id req.lockId with
  | ok m => exact ⟨fun _ => ⟨m, rfl⟩, fun _ => rfl⟩
  | error fault =>
    refine fault.refused ?_
    rintro ⟨m, hm⟩
    cases hm

theorem deleteState_accepted_iff {req : Wire.StateRequest} (hown : req.typeName ∈ served.names) (s : σ) :
    reportsError ((served.server.deleteState req).run s).1.diagnostics = false ↔
      ∃ m, (served.memory s).delete req.id = .ok m := by
  obtain ⟨schema, h⟩ := served.registered _ hown
  rw [deleteState_store h, ← memory]
  cases (served.memory s).delete req.id with
  | ok m => exact ⟨fun _ => ⟨m, rfl⟩, fun _ => rfl⟩
  | error fault =>
    refine fault.refused ?_
    rintro ⟨m, hm⟩
    cases hm

/-! ## Mutual exclusion -/

/-- What the history says of the locks in state `s` is what clients meet. -/
structure LocksExclude (served : ServedMemory σ) (history : History) (s : σ) : Prop where
  /-- No lock id was given out twice. -/
  fresh : history.lockIds.Nodup
  shown : ∀ id, ((served.memory s).lock? id).map Lock.id = history.holder? id
  /-- The locks that are held have different ids. -/
  distinct : ∀ id other lockId, history.holder? id = some lockId → history.holder? other = some lockId → id = other
  lock_iff : ∀ req : Wire.LockRequest, req.typeName ∈ served.names →
    (reportsError ((served.server.lockState req).run s).1.diagnostics = false ↔ history.holder? req.id = none)
  unlock_iff : ∀ req : Wire.UnlockRequest, req.typeName ∈ served.names →
    (reportsError ((served.server.unlockState req).run s).1.diagnostics = false ↔
      history.holder? req.id = some req.lockId)
  /-- An id that was given out for another state, or that was released, unlocks nothing. -/
  unlock_refused : ∀ (req : Wire.UnlockRequest) (other : String), req.typeName ∈ served.names →
    (other, req.lockId) ∈ history.takings ∧ other ≠ req.id ∨ StoreEvent.unlocked other req.lockId ∈ history →
    reportsError ((served.server.unlockState req).run s).1.diagnostics = true
  delete_refused : ∀ req : Wire.StateRequest, req.typeName ∈ served.names → history.holder? req.id ≠ none →
    reportsError ((served.server.deleteState req).run s).1.diagnostics = true

theorem locksExclude_of_matches {history : History} {s : σ} (h : (served.memory s).Matches history) :
    served.LocksExclude history s := by
  have hunlock : ∀ req : Wire.UnlockRequest, req.typeName ∈ served.names →
      (reportsError ((served.server.unlockState req).run s).1.diagnostics = false ↔
        history.holder? req.id = some req.lockId) :=
    fun req hown => (unlockState_accepted_iff hown s).trans h.unlock_ok_iff
  exact {
    fresh := h.orderly.lockIds_nodup
    shown := h.holder
    distinct := fun id other lockId hid hother => h.orderly.taken_for hid (History.mem_takings_of_holder hother)
    lock_iff := fun req hown => (lockState_accepted_iff hown s).trans h.lock_ok_iff
    unlock_iff := hunlock
    unlock_refused := by
      intro req other hown hid
      refine eq_true_of_ne_false fun hok => ?_
      have hheld := (hunlock req hown).1 hok
      rcases hid with ⟨htaken, hne⟩ | hreleased
      · exact hne (h.orderly.taken_for hheld htaken).symm
      · exact h.orderly.holder_ne_released hreleased hheld
    delete_refused := by
      intro req hown hheld
      refine eq_true_of_ne_false fun hok => hheld ?_
      exact (h.delete_ok_iff.1 ((deleteState_accepted_iff hown s).1 hok)).1 }

/-- **Locks exclude each other in every run** that starts with an empty memory. -/
theorem locks_exclude {s₀ s : σ} {actions : List StoreAction} {history : History} (hempty : served.memory s₀ = {})
    (hrun : (served.run actions).run s₀ = (history, s)) : served.LocksExclude history s :=
  locksExclude_of_matches (matches_of_run hempty hrun)

/-- Two states are locked and one is released: its old id is of no more use, the other state is kept. -/
def vaultActions : List StoreAction :=
  [.lock ⟨"vault", "dev", "plan"⟩, .lock ⟨"archive", "dev", "copy"⟩, .lock ⟨"mirror", "prod", "apply"⟩,
    .unlock ⟨"mirror", "dev", "lock-1"⟩]

theorem locks_exclude_vault : vault.memory ({}, {}) = {} ∧
    ∃ s, (vault.run vaultActions).run ({}, {}) =
        ([.locked "dev" "lock-1", .locked "prod" "lock-2", .unlocked "dev" "lock-1"], s) ∧
      reportsError ((vaultServer.unlockState ⟨"vault", "prod", "lock-1"⟩).run s).1.diagnostics = true ∧
      reportsError ((vaultServer.deleteState ⟨"vault", "prod"⟩).run s).1.diagnostics = true ∧
      reportsError ((vaultServer.lockState ⟨"vault", "dev", "plan"⟩).run s).1.diagnostics = false := by
  have hrun : (vault.run vaultActions).run ({}, {}) =
      ([.locked "dev" "lock-1", .locked "prod" "lock-2", .unlocked "dev" "lock-1"],
        ((vault.run vaultActions).run ({}, {})).2) := rfl
  have h := locks_exclude rfl hrun
  refine ⟨rfl, _, hrun, ?_, ?_, ?_⟩
  · exact h.unlock_refused ⟨"vault", "prod", "lock-1"⟩ "dev" (by decide) (.inr (by decide))
  · exact h.delete_refused ⟨"vault", "prod"⟩ (by decide) (by decide)
  · exact (h.lock_iff ⟨"vault", "dev", "plan"⟩ (by decide)).2 rfl

end ProviderProtocol.ServedMemory
