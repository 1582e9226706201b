import ProviderProtocol.Proofs.Server.Outcome
/-!
# Results come whole or not at all

An answer without errors carries all that the handler left: against the schemas in force its payloads decode to that
very state and that very identity, an absent identity stays absent, and the private bytes are the handler's.  For this
the handler must report no error, and state and identity must conform to their schemas; if not, the answer reports an
error and has no part of the result (`results_whole_or_not`).  An import is also free to find nothing: then there is no
record, and nothing has to conform.

The limits are those of payloads: types nested at most 500 levels, lengths below `2 ^ 32`, well-formed values.
-/
namespace ProviderProtocol

namespace Outcome

/-- Within the limits of payloads. -/
structure Limited (o : Outcome) : Prop where
  schema : ∀ s, o.schema = some s → s.valueType.depth ≤ 500
  identitySchema : ∀ s, o.identitySchema = some s → s.valueType.depth ≤ 500
  state : o.state.WellFormed ∧ o.state.Sized
  identity : ∀ v, o.identity = some v → v.WellFormed ∧ v.Sized

/-- As operations leave it that have neither identities nor private bytes. -/
def Plain (o : Outcome) : Prop := o.identity = none ∧ o.privateBytes = []

/-- An answer that carries all of the outcome. -/
structure CarriedBy (o : Outcome) (resp : Wire.StateResponse) : Prop where
  state : ∃ p, resp.newState = some p ∧ Payload.decodeFor o.schema (some p) = .ok o.state
  identity : IdentityPayload.decodeFor o.identitySchema resp.newIdentity = .ok o.identity
  identity_absent : resp.newIdentity = none ↔ o.identity = none
  privateBytes : resp.privateBytes = o.privateBytes

/-- An answer that carries all of the outcome, or nothing and an error. -/
structure WholeOrNot (o : Outcome) (resp : Wire.StateResponse) : Prop where
  accepted_iff : reportsError resp.diagnostics = false ↔ hasErrors o.diagnostics = false ∧ o.Conforms
  whole : reportsError resp.diagnostics = false → o.CarriedBy resp
  nothing : reportsError resp.diagnostics = true →
    resp.newState = none ∧ resp.newIdentity = none ∧ resp.privateBytes = []

/-! ## Encoded outcomes -/

variable {o : Outcome}

theorem Limited.state_decodes (h : o.Limited) {p : Payload} (hp : Payload.encodeFor o.schema o.state = .ok p) :
    Payload.decodeFor o.schema (some p) = .ok o.state := by
  cases hschema : o.schema with
  | none =>
    rw [hschema] at hp
    cases hp
  | some s =>
    rw [hschema] at hp
    have hdepth : s.valueType.depth ≤ 500 := h.schema s hschema
    exact (Payload.encode_roundTrips hdepth h.state.1 h.state.2).2 p hp

theorem Limited.identity_decodes (h : o.Limited) {i : Option IdentityPayload}
    (hi : IdentityPayload.encodeFor o.identitySchema o.identity = .ok i) :
    IdentityPayload.decodeFor o.identitySchema i = .ok o.identity := by
  cases hschema : o.identitySchema with
  | some s =>
    rw [hschema] at hi
    have hdepth : s.valueType.depth ≤ 500 := h.identitySchema s hschema
    exact (IdentityPayload.encodeFor_roundTrips hdepth h.identity).2 i hi
  | none =>
    rw [hschema] at hi
    cases hidentity : o.identity with
    | none =>
      rw [hidentity] at hi
      cases hi
      rfl
    | some v =>
      rw [hidentity] at hi
      cases hi

theorem identity_absent_of_encoded {s : Option IdentitySchema} {v : Option Value} {i : Option IdentityPayload}
    (hi : IdentityPayload.encodeFor s v = .ok i) : i = none ↔ v = none := by
  cases v with
  | none =>
    cases hi
    simp
  | some x =>
    obtain ⟨t, rfl, hty⟩ := IdentityPayload.encodeFor_ok_iff.1 ⟨i, hi⟩ x rfl
    simp only [IdentityPayload.encodeFor, Payload.encode, if_pos hty, Except.map, Except.ok.injEq] at hi
    subst hi
    simp

theorem Limited.carriedBy_stateAnswer (h : o.Limited) {p : Payload} {i : Option IdentityPayload}
    (hp : Payload.encodeFor o.schema o.state = .ok p)
    (hi : IdentityPayload.encodeFor o.identitySchema o.identity = .ok i) :
    o.CarriedBy (Server.stateAnswer o p i) where
  state := ⟨p, rfl, h.state_decodes hp⟩
  identity := h.identity_decodes hi
  identity_absent := identity_absent_of_encoded hi
  privateBytes := rfl

theorem Limited.wholeOrNot_stateAnswer (h : o.Limited) {p : Payload} {i : Option IdentityPayload}
    (hds : hasErrors o.diagnostics = false) (hp : Payload.encodeFor o.schema o.state = .ok p)
    (hi : IdentityPayload.encodeFor o.identitySchema o.identity = .ok i) :
    o.WholeOrNot (Server.stateAnswer o p i) where
  accepted_iff := by
    have hnone : reportsError (Server.wire o.diagnostics) = false := by rw [Server.reportsError_wire, hds]
    exact ⟨fun _ => ⟨hds, conforms_of_encoded hp hi⟩, fun _ => hnone⟩
  whole _ := h.carriedBy_stateAnswer hp hi
  nothing herror := by
    have hsome : hasErrors o.diagnostics = true := by rw [← Server.reportsError_wire]; exact herror
    rw [hds] at hsome
    cases hsome

theorem wholeOrNot_halted {ds : List WireDiagnostic} (herror : reportsError ds = true)
    (hno : ¬(hasErrors o.diagnostics = false ∧ o.Conforms)) : o.WholeOrNot ⟨none, none, [], ds⟩ where
  accepted_iff := by
    have hne : ¬ reportsError ds = false := by simp [herror]
    exact iff_of_false hne hno
  whole hok := by
    rw [herror] at hok
    cases hok
  nothing _ := ⟨rfl, rfl, rfl⟩

end Outcome

/-- `parts` reads the parts of a result off a response. -/
theorem Delivered.wholeOrNot {o : Outcome} {make : Payload → Option IdentityPayload → ρ}
    {halted : List WireDiagnostic → ρ} {resp : ρ} (h : Delivered o make halted resp) (hlim : o.Limited)
    (parts : ρ → Wire.StateResponse)
    (hmake : ∀ p i, IdentityPayload.encodeFor o.identitySchema o.identity = .ok i →
      parts (make p i) = Server.stateAnswer o p i)
    (hhalted : ∀ ds, parts (halted ds) = ⟨none, none, [], ds⟩) : o.WholeOrNot (parts resp) := by
  cases h with
  | refused herror =>
    rw [hhalted]
    refine Outcome.wholeOrNot_halted ((reportsError_toWire _).trans herror) ?_
    rintro ⟨hds, -⟩
    rw [herror] at hds
    cases hds
  | full hds hp hi =>
    rw [hmake _ _ hi]
    exact hlim.wholeOrNot_stateAnswer hds hp hi
  | unfit hds hunfit hd =>
    rw [hhalted]
    refine Outcome.wholeOrNot_halted ?_ fun hok => hunfit hok.2
    simp [reportsError, Diagnostic.isError_toWire, hd]

namespace Server

open Operation

/-! ## All operations -/

def upgradeParts (resp : Wire.UpgradeResponse) : Wire.StateResponse := ⟨resp.state, none, [], resp.diagnostics⟩

def planParts (resp : Wire.PlanResponse) : Wire.StateResponse :=
  ⟨resp.plannedState, resp.plannedIdentity, resp.plannedPrivate, resp.diagnostics⟩

/-- What the record of an import has; no record has nothing. -/
def importParts (resp : Wire.ImportResponse) : Wire.StateResponse :=
  match resp.imported with
  | []     => ⟨none, none, [], resp.diagnostics⟩
  | r :: _ => ⟨r.state, r.identity, r.privateBytes, resp.diagnostics⟩

def dataParts (resp : Wire.DataResponse) : Wire.StateResponse := ⟨resp.state, none, [], resp.diagnostics⟩

/-- For every request whose handler is asked in state `s`, if what it leaves is within the limits.  An upgrade and a
data source have neither identity nor private bytes. -/
structure ResultsWholeOrNot (server : Server σ) (s : σ) : Prop where
  upgradeResourceState : ∀ req o s', exec (server.consultUpgrade req) s = (.ok o, s') → o.Limited →
    req.version ≠ (o.schema.map Schema.version).getD 0 →
    o.WholeOrNot (upgradeParts ((server.upgradeResourceState req).run s).1)
  readResource : ∀ req o s', exec (server.consultRead req) s = (.ok o, s') → o.Limited →
    o.WholeOrNot ((server.readResource req).run s).1
  planResourceChange : ∀ req o s', exec (server.consultPlan req) s = (.ok o, s') → o.Limited →
    o.WholeOrNot (planParts ((server.planResourceChange req).run s).1)
  createOrUpdate : ∀ req o s', exec (server.consultApply req) s = (.ok (.changed o), s') → o.Limited →
    o.WholeOrNot ((server.applyResourceChange req).run s).1
  importState : ∀ req o s', exec (server.consultImport req) s = (.ok o, s') → o.Limited → o.state.isNull = false →
    o.WholeOrNot (importParts ((server.importResourceState req).run s).1)
  /-- One record of the requested type, or none beside an error. -/
  importRecord : ∀ req o s', exec (server.consultImport req) s = (.ok o, s') → o.state.isNull = false →
    ((server.importResourceState req).run s).1.imported.map Wire.ImportedResource.typeName =
      if reportsError ((server.importResourceState req).run s).1.diagnostics then [] else [req.typeName]
  /-- Nothing was found: neither state nor identity is looked at. -/
  importNothing : ∀ req o s', exec (server.consultImport req) s = (.ok o, s') → o.state.isNull = true →
    ((server.importResourceState req).run s).1 = ⟨[], wire o.diagnostics⟩
  readDataSource : ∀ req o s', exec (server.consultData req) s = (.ok o, s') → o.Limited →
    o.WholeOrNot (dataParts ((server.readDataSource req).run s).1)

theorem stateAnswer_of_plain {o : Outcome} (h : o.Plain) (p : Payload) {i : Option IdentityPayload}
    (hi : IdentityPayload.encodeFor o.identitySchema o.identity = .ok i) :
    stateAnswer o p i = ⟨some p, none, [], wire o.diagnostics⟩ := by
  obtain ⟨hidentity, hprivate⟩ := h
  have hnone : i = none := (Outcome.identity_absent_of_encoded hi).2 hidentity
  rw [stateAnswer, hnone, hprivate]

theorem consultUpgrade_plain (server : Server σ) (req : Wire.UpgradeRequest) :
    Returns (server.consultUpgrade req) Outcome.Plain := by
  refine returns_bind fun resource => returns_bind fun schema => returns_bind fun nullState => ?_
  exact returns_bind fun resp => returns_pure ⟨rfl, rfl⟩

theorem consultData_plain (server : Server σ) (req : Wire.ConfigRequest) :
    Returns (server.consultData req) Outcome.Plain := by
  refine returns_bind fun source => returns_bind fun schema => returns_bind fun config => ?_
  exact returns_bind fun resp => returns_pure ⟨rfl, rfl⟩

section Import

variable {server : Server σ} {req : Wire.ImportRequest} {o : Outcome} {s s' : σ}

theorem delivered_importResourceState (h : exec (server.consultImport req) s = (.ok o, s'))
    (hfound : o.state.isNull = false) :
    Delivered o (importAnswer req.typeName o) (Wire.ImportResponse.mk [])
      ((server.importResourceState req).run s).1 := by
  have hsome : ¬ o.state.isNull = true := by simp [hfound]
  rw [importResourceState_eq, run_answer_of_exec h, respondImported, if_neg hsome]
  exact delivered_respond _ _ _ _ o s'

theorem importResourceState_of_null (h : exec (server.consultImport req) s = (.ok o, s'))
    (hnull : o.state.isNull = true) :
    ((server.importResourceState req).run s).1 = ⟨[], wire o.diagnostics⟩ := by
  rw [importResourceState_eq, run_answer_of_exec h, respondImported, if_pos hnull, exec_bind, exec_check]
  by_cases hds : hasErrors o.diagnostics = true
  · rw [if_pos hds]
    rfl
  · rw [if_neg hds]
    rfl

theorem imported_typeNames {resp : Wire.ImportResponse}
    (h : Delivered o (importAnswer req.typeName o) (Wire.ImportResponse.mk []) resp) :
    resp.imported.map Wire.ImportedResource.typeName =
      if reportsError resp.diagnostics then [] else [req.typeName] := by
  cases h with
  | refused herror => simp [reportsError_toWire, herror]
  | full hds hp hi => simp [importAnswer, reportsError_wire, hds]
  | unfit hds hunfit hd => simp [reportsError, Diagnostic.isError_toWire, hd]

end Import

/-- **Results come whole or not at all**: what a handler leaves is accepted exactly if it reports no error and what it
leaves conforms; then it is answered without loss, and otherwise none of it is answered. -/
theorem results_whole_or_not (server : Server σ) (s : σ) : server.ResultsWholeOrNot s where
  upgradeResourceState req o s' h hlim hversion := by
    have hplain : o.Plain := consultUpgrade_plain server req s o s' h
    have hdelivered := server.delivered_upgradeResourceState h hversion
    exact hdelivered.wholeOrNot hlim upgradeParts (fun p _ hi => (stateAnswer_of_plain hplain p hi).symm) fun _ => rfl
  readResource req o s' h hlim := by
    rw [readResource_eq, run_answer_of_exec h]
    exact (delivered_respond _ _ stateAnswer _ o s').wholeOrNot hlim id (fun _ _ _ => rfl) fun _ => rfl
  planResourceChange req o s' h hlim := by
    rw [planResourceChange_eq]
    exact (delivered_of_exec h _ _ planAnswer).wholeOrNot hlim planParts (fun _ _ _ => rfl) fun _ => rfl
  createOrUpdate req o s' h hlim := by
    rw [applyResourceChange_eq_consultApply, run_answer_of_exec h]
    exact (delivered_respond _ _ stateAnswer _ o s').wholeOrNot hlim id (fun _ _ _ => rfl) fun _ => rfl
  importState req o s' h hlim hfound :=
    (delivered_importResourceState h hfound).wholeOrNot hlim importParts (fun _ _ _ => rfl) fun _ => rfl
  importRecord req o s' h hfound := imported_typeNames (delivered_importResourceState h hfound)
  importNothing req o s' h hnull := importResourceState_of_null h hnull
  readDataSource req o s' h hlim := by
    have hplain : o.Plain := consultData_plain server req s o s' h
    rw [readDataSource_eq]
    exact (delivered_of_exec h _ _ dataAnswer).wholeOrNot hlim dataParts
      (fun p _ hi => (stateAnswer_of_plain hplain p hi).symm) fun _ => rfl

/-! ### Endpoints

Reading an endpoint finds it, identity included; importing one finds it without an identity; an endpoint that is created
turns out to be a string. -/

def endpointResource : Resource Unit where
  schema := reportSchema (some endpointSchema)
  identitySchema _ resp := pure { resp with schema := some endpointIdentity }
  read _ resp := pure { resp with newState := endpoint, newIdentity := some endpoint, privateBytes := [5] }
  importState _ resp := pure { resp with state := endpoint, identity := none }
  create _ resp := pure { resp with newState := .ofString "endpoint", privateBytes := [5] }

def endpointServer : Server Unit := ⟨({ provider := {} : Registry Unit }).addResource "endpoint" endpointResource, {}⟩

def endpointOutcome (state : Value) (identity : Option Value) (privateBytes : Bytes) : Outcome :=
  ⟨some endpointSchema, some endpointIdentity, state, identity, privateBytes, [], []⟩

theorem endpointOutcome_limited {state : Value} {identity : Option Value} {privateBytes : Bytes}
    (hstate : state.WellFormed ∧ state.Sized) (hidentity : ∀ v, identity = some v → v.WellFormed ∧ v.Sized) :
    (endpointOutcome state identity privateBytes).Limited where
  schema s hs := by
    cases hs
    decide
  identitySchema s hs := by
    cases hs
    decide
  state := hstate
  identity := hidentity

theorem results_whole_or_not_endpoint :
    (endpointOutcome endpoint (some endpoint) [5]).CarriedBy
        ((endpointServer.readResource ⟨"endpoint", none, [], none⟩).run ()).1 ∧
      (endpointOutcome endpoint none []).CarriedBy
        (importParts ((endpointServer.importResourceState ⟨"endpoint", "e-1", none⟩).run ()).1) ∧
      reportsError ((endpointServer.applyResourceChange ⟨"endpoint", none, none, none, [], none⟩).run ()).1.diagnostics
        = true := by
  have h := results_whole_or_not endpointServer ()
  have hendpoint : endpoint.WellFormed ∧ endpoint.Sized := ⟨by decide, endpoint_sized⟩
  refine ⟨?_, ?_, ?_⟩
  · have hlim : (endpointOutcome endpoint (some endpoint) [5]).Limited :=
      endpointOutcome_limited hendpoint fun v hv => by cases hv; exact hendpoint
    have hread := h.readResource ⟨"endpoint", none, [], none⟩ _ () rfl hlim
    have hfit : (endpointOutcome endpoint (some endpoint) [5]).Conforms :=
      ⟨⟨_, rfl, by decide⟩, fun v hv => by cases hv; exact ⟨_, rfl, by decide⟩⟩
    exact hread.whole (hread.accepted_iff.2 ⟨rfl, hfit⟩)
  · have hlim : (endpointOutcome endpoint none []).Limited :=
      endpointOutcome_limited hendpoint fun v hv => by cases hv
    have himport := h.importState ⟨"endpoint", "e-1", none⟩ _ () rfl hlim rfl
    have hfit : (endpointOutcome endpoint none []).Conforms := ⟨⟨_, rfl, by decide⟩, fun v hv => by cases hv⟩
    exact himport.whole (himport.accepted_iff.2 ⟨rfl, hfit⟩)
  · have hlim : (endpointOutcome (.ofString "endpoint") none [5]).Limited :=
      endpointOutcome_limited ⟨by decide, show (Text.Utf8.encode "endpoint").length < 2 ^ 32 by decide⟩
        fun v hv => by cases hv
    have hcreate := h.createOrUpdate ⟨"endpoint", none, none, none, [], none⟩ _ () rfl hlim
    refine Bool.eq_true_of_not_eq_false fun hok => ?_
    obtain ⟨-, ⟨s, hs, hty⟩, -⟩ := hcreate.accepted_iff.1 hok
    cases hs
    exact absurd hty (by decide)

end Server

end ProviderProtocol
