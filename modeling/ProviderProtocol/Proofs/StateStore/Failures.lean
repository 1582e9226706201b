import ProviderProtocol.Proofs.StateStore.Runs
/-!
# Failed requests to a served memory

A request that is answered with an error has done nothing to the memory: states, locks, the count of locks and the
chunk size are what they were (`failed_requests_change_nothing`).  It does not matter which store was named, whether
there is one, and how far the request got before it failed.

An answer with an error tells of no event, and an action without an event leaves the memory as it is
(`perform_moves`).  What an answer without an error does is the whole of its event, so no request is done by half.
-/
namespace ProviderProtocol.ServedMemory

open Server

variable {served : ServedMemory σ}

/-- In state `s` no request that is answered with an error changes the memory.  The diagnostics of a download are on its
chunks. -/
structure FailuresAtomic (served : ServedMemory σ) (s : σ) : Prop where
  configure : ∀ req, reportsError ((served.server.configureStateStore req).run s).1.diagnostics = true →
    served.memory ((served.server.configureStateStore req).run s).2 = served.memory s
  write : ∀ chunks, reportsError ((served.server.writeStateBytes chunks).run s).1.diagnostics = true →
    served.memory ((served.server.writeStateBytes chunks).run s).2 = served.memory s
  delete : ∀ req, reportsError ((served.server.deleteState req).run s).1.diagnostics = true →
    served.memory ((served.server.deleteState req).run s).2 = served.memory s
  lock : ∀ req, reportsError ((served.server.lockState req).run s).1.diagnostics = true →
    served.memory ((served.server.lockState req).run s).2 = served.memory s
  unlock : ∀ req, reportsError ((served.server.unlockState req).run s).1.diagnostics = true →
    served.memory ((served.server.unlockState req).run s).2 = served.memory s
  getStates : ∀ name, reportsError ((served.server.getStates name).run s).1.diagnostics = true →
    served.memory ((served.server.getStates name).run s).2 = served.memory s
  read : ∀ req, ∀ c ∈ ((served.server.readStateBytes req).run s).1, reportsError c.diagnostics = true →
    served.memory ((served.server.readStateBytes req).run s).2 = served.memory s

/-- An answer with an error tells of no event. -/
theorem accepted_eq_none {name : String} {reported : List WireDiagnostic} (h : reportsError reported = true)
    (event : StoreEvent) : served.accepted name reported event = none := by
  have hno : ¬(name ∈ served.names ∧ reportsError reported = false) := by
    rintro ⟨-, hok⟩
    rw [h] at hok
    cases hok
  exact if_neg hno

theorem memory_eq_of_error {s s' : σ} {name : String} {reported : List WireDiagnostic} {event : StoreEvent}
    (h : reportsError reported = true)
    (hmoves : (served.memory s).Moves (served.accepted name reported event) (served.memory s')) :
    served.memory s' = served.memory s := by
  rw [accepted_eq_none h] at hmoves
  exact hmoves

/-- An upload that names no target does not get to any store. -/
theorem memory_eq_of_write_error {chunks : List Wire.UploadChunk} {s : σ}
    (h : reportsError ((served.server.writeStateBytes chunks).run s).1.diagnostics = true) :
    served.memory ((served.server.writeStateBytes chunks).run s).2 = served.memory s := by
  cases htarget : TypedRequest.uploadTarget chunks with
  | ok target   => exact memory_eq_of_error h (write_moves htarget rfl)
  | error fault => rw [writeStateBytes_of_no_target htarget]

/-- **A request that fails changes nothing**, in whatever state it comes. -/
theorem failed_requests_change_nothing (served : ServedMemory σ) (s : σ) : served.FailuresAtomic s where
  configure _ herror := memory_eq_of_error herror (configure_moves rfl)
  write _ herror := memory_eq_of_write_error herror
  delete _ herror := memory_eq_of_error herror (delete_moves rfl)
  lock _ herror := memory_eq_of_error herror (lock_moves rfl)
  unlock _ herror := memory_eq_of_error herror (unlock_moves rfl)
  getStates name _ := perform_moves served (.getStates name) s
  read req _ _ _ := perform_moves served (.read req) s

/-- A chunk size is negotiated, and a state is stored and locked. -/
def setUpActions : List StoreAction :=
  [.configure ⟨"vault", none, some 2⟩, .write [⟨some ⟨"vault", "dev"⟩, [1, 2, 3], 3, none⟩],
    .lock ⟨"mirror", "dev", "apply"⟩]

/-- A payload without content, a chunk out of order, a lock that is held, a wrong lock id and a store that is not
registered. -/
theorem failed_requests_change_nothing_vault :
    ∃ s, (vault.run setUpActions).run ({}, {}) =
        ([.configured 2, .stored "dev" [1, 2, 3], .locked "dev" "lock-1"], s) ∧
      vault.memory s = ⟨[("dev", [1, 2, 3])], [("dev", ⟨"lock-1", "apply"⟩)], 1, 2⟩ ∧
      vault.memory ((vaultServer.configureStateStore ⟨"vault", some ⟨[], []⟩, some 7⟩).run s).2 = vault.memory s ∧
      vault.memory ((vaultServer.writeStateBytes [⟨some ⟨"vault", "dev"⟩, [8], 2, some ⟨0, 1⟩⟩,
        ⟨none, [9], 2, some ⟨0, 1⟩⟩]).run s).2 = vault.memory s ∧
      vault.memory ((vaultServer.deleteState ⟨"vault", "dev"⟩).run s).2 = vault.memory s ∧
      vault.memory ((vaultServer.lockState ⟨"mirror", "dev", "plan"⟩).run s).2 = vault.memory s ∧
      vault.memory ((vaultServer.unlockState ⟨"mirror", "dev", "lock-2"⟩).run s).2 = vault.memory s ∧
      vault.memory ((vaultServer.getStates "attic").run s).2 = vault.memory s ∧
      vault.memory ((vaultServer.readStateBytes ⟨"attic", "dev"⟩).run s).2 = vault.memory s := by
  have h := failed_requests_change_nothing vault ((vault.run setUpActions).run ({}, {})).2
  refine ⟨_, rfl, rfl, h.configure _ rfl, h.write _ rfl, h.delete _ rfl, h.lock _ rfl, h.unlock _ rfl,
    h.getStates _ rfl, ?_⟩
  exact h.read _ _ List.mem_cons_self rfl

end ProviderProtocol.ServedMemory
