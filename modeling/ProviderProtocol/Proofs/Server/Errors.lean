import ProviderProtocol.Proofs.Server.Run
import ProviderProtocol.Server.DataSource
import ProviderProtocol.Server.StateStore
/-!
# Answers that report an error

An operation that is halted answers its diagnostics and nothing else.  One that comes to its end has passed the check
of what the handler reported, and every response is put together after that check; so a response with anything in it
beside diagnostics reports no error (`Operation.Returns.error_alone`, `errors_come_alone`).

An error here is what a client takes for one: a diagnostic on the wire with the number of an error.
-/
namespace ProviderProtocol

def WireDiagnostic.isError (d : WireDiagnostic) : Bool := d.severity == Severity.error.number

def reportsError (ds : List WireDiagnostic) : Bool := ds.any WireDiagnostic.isError

theorem Diagnostic.isError_toWire (d : Diagnostic) : d.toWire.isError = d.isError := by
  obtain ⟨severity, summary, detail, path⟩ := d
  cases severity with
  | error   => rfl
  | warning => rfl

theorem reportsError_toWire (ds : List Diagnostic) : reportsError (ds.map Diagnostic.toWire) = hasErrors ds := by
  simp [reportsError, hasErrors, Function.comp_def, Diagnostic.isError_toWire]

/-- A response that consists of its diagnostics alone if one of them is an error. -/
def ErrorAlone (halted : List WireDiagnostic → ρ) (reported : ρ → List WireDiagnostic) (resp : ρ) : Prop :=
  reportsError (reported resp) = true → resp = halted (reported resp)

namespace Operation

/-- Every result of the operation is such. -/
def Returns (op : Operation σ α) (P : α → Prop) : Prop := ∀ s a s', exec op s = (.ok a, s') → P a

theorem returns_pure {a : α} {P : α → Prop} (h : P a) : Returns (pure a : Operation σ α) P := by
  intro s b s' hb
  obtain ⟨rfl, -⟩ := exec_pure_eq_ok.1 hb
  exact h

theorem Returns.bind {op : Operation σ α} {f : α → Operation σ β} {Q : α → Prop} {P : β → Prop} (h : Returns op Q)
    (hf : ∀ a, Q a → Returns (f a) P) : Returns (op >>= f) P := by
  intro s b s'' hb
  obtain ⟨a, s', ha, hb⟩ := exec_bind_eq_ok.1 hb
  exact hf a (h s a s' ha) s' b s'' hb

/-- Only the last step decides, if nothing is asked of those before it. -/
theorem returns_bind {op : Operation σ α} {f : α → Operation σ β} {P : β → Prop} (hf : ∀ a, Returns (f a) P) :
    Returns (op >>= f) P :=
  Returns.bind (fun _ _ _ _ => trivial : Returns op fun _ => True) fun a _ => hf a

theorem returns_check (ds : List Diagnostic) : Returns (check ds : Operation σ Unit) fun _ => hasErrors ds = false := by
  intro s a s' h
  rw [exec_check] at h
  cases hds : hasErrors ds with
  | false => rfl
  | true  =>
    rw [hds] at h
    cases h

theorem returns_found (e : Except Diagnostic α) : Returns (found e : Operation σ α) fun a => e = .ok a :=
  fun _ _ _ h => (exec_found_eq_ok.1 h).1

/-- **What reports an error is the response of a halted operation**, if what the operation itself returns reports
none. -/
theorem Returns.errorAlone {op : Operation σ ρ} {halted : List WireDiagnostic → ρ} {reported : ρ → List WireDiagnostic}
    (hhalted : ∀ ds, reported (halted ds) = ds) (h : Returns op fun resp => reportsError (reported resp) = false)
    (s : σ) : ErrorAlone halted reported ((answer halted op).run s).1 := by
  intro herror
  rw [run_answer] at herror ⊢
  cases he : (exec op s).1 with
  | error ds =>
    show halted (ds.map Diagnostic.toWire) = halted (reported (halted (ds.map Diagnostic.toWire)))
    rw [hhalted]
  | ok resp =>
    have hnone : reportsError (reported resp) = false := h s resp (exec op s).2 (Prod.ext he rfl)
    rw [he] at herror
    exact absurd herror (by rw [hnone]; exact Bool.false_ne_true)

end Operation

namespace Server

open Operation

theorem reportsError_wire (ds : List Diagnostic) : reportsError (wire ds) = hasErrors ds := reportsError_toWire ds

/-! ## Downloads -/

theorem diagnostics_of_mem_chunksFrom {total : Nat} {c : Wire.DownloadChunk} : ∀ {parts : List Bytes} {start : Nat},
    c ∈ chunksFrom total start parts → c.diagnostics = []
  | [], _, h         => by cases h
  | p :: parts, _, h => by
    rcases List.mem_cons.1 h with rfl | h
    · rfl
    · exact diagnostics_of_mem_chunksFrom h

/-- A chunk of a download brings all of its diagnostics or none. -/
theorem diagnostics_of_mem_chunkState {bytes : Bytes} {size : Nat} {ds : List WireDiagnostic} {c : Wire.DownloadChunk}
    (h : c ∈ chunkState bytes size ds) : c.diagnostics = ds ∨ c.diagnostics = [] := by
  unfold chunkState at h
  dsimp only at h
  cases hcs : chunksFrom bytes.length 0 (if bytes.isEmpty then [[]] else pieces (max size 1) bytes.length bytes) with
  | nil =>
    rw [hcs] at h
    cases h
  | cons first rest =>
    rw [hcs] at h
    rcases List.mem_cons.1 h with rfl | h
    · exact .inl rfl
    · exact .inr (diagnostics_of_mem_chunksFrom (hcs ▸ List.mem_cons_of_mem first h))

/-! ## All operations -/

/-- In state `s` an answer with an error has every other field at its default; a download has then one chunk, which has
no bytes, no range and the length zero. -/
structure ErrorsAlone (server : Server σ) (s : σ) : Prop where
  upgradeResourceState : ∀ req, ErrorAlone (fun ds => { diagnostics := ds }) Wire.UpgradeResponse.diagnostics
    ((server.upgradeResourceState req).run s).1
  readResource : ∀ req, ErrorAlone (fun ds => { diagnostics := ds }) Wire.StateResponse.diagnostics
    ((server.readResource req).run s).1
  planResourceChange : ∀ req, ErrorAlone (fun ds => { diagnostics := ds }) Wire.PlanResponse.diagnostics
    ((server.planResourceChange req).run s).1
  applyResourceChange : ∀ req, ErrorAlone (fun ds => { diagnostics := ds }) Wire.StateResponse.diagnostics
    ((server.applyResourceChange req).run s).1
  importResourceState : ∀ req, ErrorAlone (fun ds => { diagnostics := ds }) Wire.ImportResponse.diagnostics
    ((server.importResourceState req).run s).1
  readDataSource : ∀ req, ErrorAlone (fun ds => { diagnostics := ds }) Wire.DataResponse.diagnostics
    ((server.readDataSource req).run s).1
  configureStateStore : ∀ req, ErrorAlone (fun ds => { diagnostics := ds }) Wire.ConfigureStoreResponse.diagnostics
    ((server.configureStateStore req).run s).1
  getStates : ∀ typeName, ErrorAlone (fun ds => { diagnostics := ds }) Wire.StatesResponse.diagnostics
    ((server.getStates typeName).run s).1
  lockState : ∀ req, ErrorAlone (fun ds => { diagnostics := ds }) Wire.LockResponse.diagnostics
    ((server.lockState req).run s).1
  readStateBytes : ∀ req, ∀ c ∈ ((server.readStateBytes req).run s).1, reportsError c.diagnostics = true →
    ((server.readStateBytes req).run s).1 = [{ diagnostics := c.diagnostics }]

theorem returns_encodeState (schema : Option Schema) (identitySchema : Option IdentitySchema) (resp : StateResponse) :
    Returns (encodeState schema identitySchema resp : Operation σ Wire.StateResponse) fun r =>
      reportsError r.diagnostics = false := by
  unfold encodeState
  refine (returns_check _).bind fun _ hds => ?_
  refine returns_bind fun newState => returns_bind fun newIdentity => returns_pure ?_
  exact (reportsError_wire _).trans hds

theorem upgradeResourceState_errorAlone (server : Server σ) (req : Wire.UpgradeRequest) (s : σ) :
    ErrorAlone (fun ds => { diagnostics := ds }) Wire.UpgradeResponse.diagnostics
      ((server.upgradeResourceState req).run s).1 := by
  refine Returns.errorAlone (fun _ => rfl) ?_ s
  refine returns_bind fun resource => returns_bind fun schema => returns_bind fun nullState => ?_
  split
  · exact returns_bind fun state => returns_bind fun payload => returns_pure rfl
  · refine returns_bind fun resp => (returns_check _).bind fun _ hds => returns_bind fun payload => returns_pure ?_
    exact (reportsError_wire _).trans hds

theorem readResource_errorAlone (server : Server σ) (req : Wire.ReadRequest) (s : σ) :
    ErrorAlone (fun ds => { diagnostics := ds }) Wire.StateResponse.diagnostics
      ((server.readResource req).run s).1 := by
  refine Returns.errorAlone (fun _ => rfl) ?_ s
  refine returns_bind fun resource => returns_bind fun schema => returns_bind fun identitySchema => ?_
  refine returns_bind fun currentState => returns_bind fun currentIdentity => returns_bind fun resp => ?_
  exact returns_encodeState _ _ resp

theorem planResourceChange_errorAlone (server : Server σ) (req : Wire.PlanRequest) (s : σ) :
    ErrorAlone (fun ds => { diagnostics := ds }) Wire.PlanResponse.diagnostics
      ((server.planResourceChange req).run s).1 := by
  refine Returns.errorAlone (fun _ => rfl) ?_ s
  refine returns_bind fun resource => returns_bind fun schema => returns_bind fun identitySchema => ?_
  refine returns_bind fun prior => returns_bind fun proposed => returns_bind fun config => ?_
  refine returns_bind fun priorIdentity => returns_bind fun seed => returns_bind fun resp => ?_
  refine (returns_check _).bind fun _ hds => ?_
  refine returns_bind fun plannedState => returns_bind fun plannedIdentity => returns_pure ?_
  exact (reportsError_wire _).trans hds

theorem applyResourceChange_errorAlone (server : Server σ) (req : Wire.ApplyRequest) (s : σ) :
    ErrorAlone (fun ds => { diagnostics := ds }) Wire.StateResponse.diagnostics
      ((server.applyResourceChange req).run s).1 := by
  refine Returns.errorAlone (fun _ => rfl) ?_ s
  refine returns_bind fun resource => returns_bind fun schema => returns_bind fun identitySchema => ?_
  refine returns_bind fun prior => returns_bind fun planned => returns_bind fun config => ?_
  refine returns_bind fun plannedIdentity => ?_
  split
  · exact returns_bind fun resp => returns_encodeState _ _ resp
  · split
    · refine returns_bind fun ds => (returns_check ds).bind fun _ hds => returns_pure ?_
      exact (reportsError_wire _).trans hds
    · exact returns_bind fun resp => returns_encodeState _ _ resp

theorem importResourceState_errorAlone (server : Server σ) (req : Wire.ImportRequest) (s : σ) :
    ErrorAlone (fun ds => { diagnostics := ds }) Wire.ImportResponse.diagnostics
      ((server.importResourceState req).run s).1 := by
  refine Returns.errorAlone (fun _ => rfl) ?_ s
  refine returns_bind fun resource => returns_bind fun schema => returns_bind fun identitySchema => ?_
  refine returns_bind fun identity => returns_bind fun state => returns_bind fun resp => ?_
  refine (returns_check _).bind fun _ hds => ?_
  have hnone : reportsError (wire resp.diagnostics) = false := (reportsError_wire _).trans hds
  split
  · exact returns_pure hnone
  · exact returns_bind fun state => returns_bind fun identity => returns_pure hnone

theorem readDataSource_errorAlone (server : Server σ) (req : Wire.ConfigRequest) (s : σ) :
    ErrorAlone (fun ds => { diagnostics := ds }) Wire.DataResponse.diagnostics
      ((server.readDataSource req).run s).1 := by
  refine Returns.errorAlone (fun _ => rfl) ?_ s
  refine returns_bind fun source => returns_bind fun schema => returns_bind fun config => ?_
  refine returns_bind fun resp => (returns_check _).bind fun _ hds => returns_bind fun payload => returns_pure ?_
  exact (reportsError_wire _).trans hds

theorem configureStateStore_errorAlone (server : Server σ) (req : Wire.ConfigureStoreRequest) (s : σ) :
    ErrorAlone (fun ds => { diagnostics := ds }) Wire.ConfigureStoreResponse.diagnostics
      ((server.configureStateStore req).run s).1 := by
  refine Returns.errorAlone (fun _ => rfl) ?_ s
  refine returns_bind fun store => returns_bind fun config => returns_bind fun resp => ?_
  exact (returns_check _).bind fun _ hds => returns_pure ((reportsError_wire _).trans hds)

theorem getStates_errorAlone (server : Server σ) (typeName : String) (s : σ) :
    ErrorAlone (fun ds => { diagnostics := ds }) Wire.StatesResponse.diagnostics
      ((server.getStates typeName).run s).1 := by
  refine Returns.errorAlone (fun _ => rfl) ?_ s
  refine returns_bind fun store => returns_bind fun resp => ?_
  exact (returns_check _).bind fun _ hds => returns_pure ((reportsError_wire _).trans hds)

theorem lockState_errorAlone (server : Server σ) (req : Wire.LockRequest) (s : σ) :
    ErrorAlone (fun ds => { diagnostics := ds }) Wire.LockResponse.diagnostics ((server.lockState req).run s).1 := by
  refine Returns.errorAlone (fun _ => rfl) ?_ s
  refine returns_bind fun store => returns_bind fun resp => ?_
  exact (returns_check _).bind fun _ hds => returns_pure ((reportsError_wire _).trans hds)

theorem readStateBytes_errorAlone (server : Server σ) (req : Wire.StateRequest) (s : σ) :
    ErrorAlone (fun ds => [{ diagnostics := ds }]) (List.flatMap Wire.DownloadChunk.diagnostics)
      ((server.readStateBytes req).run s).1 := by
  refine Returns.errorAlone (fun ds => List.append_nil ds) ?_ s
  refine returns_bind fun store => returns_bind fun resp => (returns_check _).bind fun _ hds => returns_pure ?_
  rw [reportsError, List.any_eq_false]
  intro d hd
  obtain ⟨c, hc, hdc⟩ := List.mem_flatMap.1 hd
  rcases diagnostics_of_mem_chunkState hc with h | h
  · have hnone : reportsError (wire resp.diagnostics) = false := (reportsError_wire _).trans hds
    exact List.any_eq_false.1 hnone d (h ▸ hdc)
  · rw [h] at hdc
    cases hdc

/-- The chunk that reports an error is the whole download. -/
theorem readStateBytes_error_chunk (server : Server σ) (req : Wire.StateRequest) (s : σ) (c : Wire.DownloadChunk)
    (hc : c ∈ ((server.readStateBytes req).run s).1) (herror : reportsError c.diagnostics = true) :
    ((server.readStateBytes req).run s).1 = [{ diagnostics := c.diagnostics }] := by
  have hall := readStateBytes_errorAlone server req s <| by
    obtain ⟨d, hd, he⟩ := List.any_eq_true.1 herror
    exact List.any_eq_true.2 ⟨d, List.mem_flatMap.2 ⟨c, hc, hd⟩, he⟩
  have honly := hall ▸ hc
  rw [List.mem_singleton.1 honly]
  exact hall

/-- **An answer that reports an error carries nothing else**: whatever the handlers do, no part of a state, an identity,
private bytes or a lock comes with an error. -/
theorem errors_come_alone (server : Server σ) (s : σ) : server.ErrorsAlone s where
  upgradeResourceState req := upgradeResourceState_errorAlone server req s
  readResource req := readResource_errorAlone server req s
  planResourceChange req := planResourceChange_errorAlone server req s
  applyResourceChange req := applyResourceChange_errorAlone server req s
  importResourceState req := importResourceState_errorAlone server req s
  readDataSource req := readDataSource_errorAlone server req s
  configureStateStore req := configureStateStore_errorAlone server req s
  getStates typeName := getStates_errorAlone server typeName s
  lockState req := lockState_errorAlone server req s
  readStateBytes req := readStateBytes_error_chunk server req s

/-! ### Volumes

A provider whose volume is gone and whose snapshots are torn; both handlers leave data beside the error. -/

def volumeResource : Resource Unit where
  schema := reportSchema (some (.new 0))
  read _ resp := pure { resp with
    privateBytes := [1]
    diagnostics := [.warning "Volume was detached" none, .error "Volume is gone" none] }

def snapshotStore : StateStore Unit where
  readBytes _ resp := pure { resp with bytes := [1, 2], diagnostics := [.error "Snapshot is torn" none] }

def volumeServer : Server Unit :=
  let registry : Registry Unit := { provider := {} }
  ⟨(registry.addResource "volume" volumeResource).addStateStore "snapshot" snapshotStore, {}⟩

theorem errors_come_alone_volume :
    ((volumeServer.readResource ⟨"volume", none, [7], none⟩).run ()).1 =
        ⟨none, none, [], [⟨2, "Volume was detached", "", none⟩, ⟨1, "Volume is gone", "", none⟩]⟩ ∧
      ((volumeServer.readStateBytes ⟨"snapshot", "weekly"⟩).run ()).1 =
        [⟨[], 0, none, [⟨1, "Snapshot is torn", "", none⟩]⟩] := by
  have h := errors_come_alone volumeServer ()
  exact ⟨h.readResource ⟨"volume", none, [7], none⟩ rfl,
    h.readStateBytes ⟨"snapshot", "weekly"⟩ _ List.mem_cons_self rfl⟩

end Server

end ProviderProtocol
