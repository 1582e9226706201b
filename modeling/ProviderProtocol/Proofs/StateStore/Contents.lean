import ProviderProtocol.Proofs.StateStore.Runs
/-!
# Contents of a served memory

Behind chunks, locks and negotiated sizes a served memory is a map from ids to bytes (`RefinesMap`): reading gives the
bytes that were stored last, in whatever chunks they came and go, the list of states is the domain of the map, and what
is done to one state is not seen at another.
-/
namespace ProviderProtocol.ServedMemory

open Server

variable {served : ServedMemory σ}

/-! ## What is answered -/

theorem readStateBytes_bytes {req : Wire.StateRequest} (hown : req.typeName ∈ served.names) (s : σ) :
    ((served.server.readStateBytes req).run s).1.flatMap Wire.DownloadChunk.bytes =
      ((served.memory s).state? req.id).getD [] := by
  obtain ⟨schema, h⟩ := served.registered _ hown
  rw [readStateBytes_store h]
  exact flatMap_bytes_chunkState _ _ _

/-- Reading always succeeds, also where nothing is stored. -/
theorem readStateBytes_silent {req : Wire.StateRequest} (hown : req.typeName ∈ served.names) (s : σ) :
    ∀ c ∈ ((served.server.readStateBytes req).run s).1, c.diagnostics = [] := by
  obtain ⟨schema, h⟩ := served.registered _ hown
  rw [readStateBytes_store h]
  intro c hc
  exact (diagnostics_of_mem_chunkState hc).elim id id

theorem getStates_answer {name : String} (hown : name ∈ served.names) (s : σ) :
    ((served.server.getStates name).run s).1 = ⟨Table.names (served.memory s).states, []⟩ := by
  obtain ⟨schema, h⟩ := served.registered _ hown
  rw [getStates_store h]
  rfl

/-- What is read depends on the state that is read, and on the chunk size. -/
theorem readStateBytes_congr {req : Wire.StateRequest} (hown : req.typeName ∈ served.names) {s s' : σ}
    (hstate : (served.memory s').state? req.id = (served.memory s).state? req.id)
    (hsize : (served.memory s').chunkSize = (served.memory s).chunkSize) :
    ((served.server.readStateBytes req).run s').1 = ((served.server.readStateBytes req).run s).1 := by
  obtain ⟨schema, h⟩ := served.registered _ hown
  rw [readStateBytes_store h, readStateBytes_store h, ← memory, ← memory, hstate, hsize]

/-! ## One state at a time -/

/-- An action on one state leaves the others, their locks and the chunk size as they are. -/
theorem perform_frame {action : StoreAction} {id other : String} {s : σ} (h : (served.memory s).Ordered)
    (haction : action.stateId? = some id) (hother : other ≠ id) :
    (served.memory ((served.perform action).run s).2).state? other = (served.memory s).state? other ∧
      (served.memory ((served.perform action).run s).2).lock? other = (served.memory s).lock? other ∧
      (served.memory ((served.perform action).run s).2).chunkSize = (served.memory s).chunkSize := by
  have hmoves := perform_moves served action s
  cases hevent : ((served.perform action).run s).1 with
  | none =>
    rw [hevent] at hmoves
    have hsame : served.memory ((served.perform action).run s).2 = served.memory s := hmoves
    rw [hsame]
    exact ⟨rfl, rfl, rfl⟩
  | some e =>
    rw [hevent] at hmoves
    have hid : e.stateId? = some id := (event_stateId hevent).trans haction
    have hne : e.stateId? ≠ some other := by
      rw [hid]
      intro heq
      exact hother (Option.some.inj heq).symm
    obtain ⟨hstate, hlock⟩ := Memory.Step.frame hmoves h hne
    refine ⟨hstate, hlock, (Memory.Step.chunkSize hmoves).resolve_right ?_⟩
    rw [hid]
    exact Option.some_ne_none id

/-! ## The map -/

/-- In state `s` the memory is the map from ids to bytes that the history tells of. -/
structure RefinesMap (served : ServedMemory σ) (history : History) (s : σ) : Prop where
  read : ∀ req : Wire.StateRequest, req.typeName ∈ served.names →
    ((served.server.readStateBytes req).run s).1.flatMap Wire.DownloadChunk.bytes =
      (history.contents? req.id).getD []
  read_silent : ∀ req : Wire.StateRequest, req.typeName ∈ served.names →
    ∀ c ∈ ((served.server.readStateBytes req).run s).1, c.diagnostics = []
  ascending : ∀ name ∈ served.names, ((served.server.getStates name).run s).1.ids.Pairwise (· < ·)
  mem_ids : ∀ name ∈ served.names, ∀ id,
    id ∈ ((served.server.getStates name).run s).1.ids ↔ ∃ bytes, history.contents? id = some bytes
  states_silent : ∀ name ∈ served.names, ((served.server.getStates name).run s).1.diagnostics = []
  /-- An action on one state changes neither what is read nor what is locked for another. -/
  frame : ∀ (action : StoreAction) (id other : String), action.stateId? = some id → other ≠ id →
    (served.memory ((served.perform action).run s).2).lock? other = (served.memory s).lock? other ∧
      ∀ name ∈ served.names,
        ((served.server.readStateBytes ⟨name, other⟩).run ((served.perform action).run s).2).1 =
          ((served.server.readStateBytes ⟨name, other⟩).run s).1

theorem refinesMap_of_matches {history : History} {s : σ} (h : (served.memory s).Matches history) :
    served.RefinesMap history s where
  read req hown := by rw [readStateBytes_bytes hown, h.state?]
  read_silent req hown := readStateBytes_silent hown s
  ascending name hown := by
    rw [getStates_answer hown]
    exact h.ordered.states
  mem_ids name hown id := by
    rw [getStates_answer hown]
    exact h.mem_names_iff
  states_silent name hown := by rw [getStates_answer hown]
  frame action id other haction hother := by
    obtain ⟨hstate, hlock, hsize⟩ := perform_frame h.ordered haction hother
    exact ⟨hlock, fun name hown => readStateBytes_congr hown hstate hsize⟩

/-- **A served memory refines a map from ids to bytes**, in every run that starts with an empty memory. -/
theorem refines_map {s₀ s : σ} {actions : List StoreAction} {history : History} (hempty : served.memory s₀ = {})
    (hrun : (served.run actions).run s₀ = (history, s)) : served.RefinesMap history s :=
  refinesMap_of_matches (matches_of_run hempty hrun)

/-- A state is uploaded in two chunks while it is locked, one is put past the server and deleted again. -/
def editActions : List StoreAction :=
  [.configure ⟨"vault", none, some 2⟩, .lock ⟨"mirror", "dev", "apply"⟩,
    .write [⟨some ⟨"vault", "dev"⟩, [1, 2], 3, some ⟨0, 2⟩⟩, ⟨none, [3], 3, some ⟨2, 3⟩⟩],
    .put "prod" [9], .write [⟨some ⟨"vault", "dev"⟩, [7], 3, none⟩], .delete ⟨"vault", "prod"⟩]

theorem refines_map_vault : vault.memory ({}, {}) = {} ∧
    ∃ s, (vault.run editActions).run ({}, {}) = ([.configured 2, .locked "dev" "lock-1", .stored "dev" [1, 2, 3],
        .stored "prod" [9], .deleted "prod"], s) ∧
      ((vaultServer.readStateBytes ⟨"mirror", "dev"⟩).run s).1.flatMap Wire.DownloadChunk.bytes = [1, 2, 3] ∧
      "prod" ∉ ((vaultServer.getStates "vault").run s).1.ids := by
  have hrun : (vault.run editActions).run ({}, {}) =
      ([.configured 2, .locked "dev" "lock-1", .stored "dev" [1, 2, 3], .stored "prod" [9], .deleted "prod"],
        ((vault.run editActions).run ({}, {})).2) := rfl
  have h := refines_map rfl hrun
  refine ⟨rfl, _, hrun, ?_, ?_⟩
  · exact h.read ⟨"mirror", "dev"⟩ (by decide)
  · intro hmem
    obtain ⟨bytes, hbytes⟩ := (h.mem_ids "vault" (by decide) "prod").1 hmem
    cases hbytes

end ProviderProtocol.ServedMemory
