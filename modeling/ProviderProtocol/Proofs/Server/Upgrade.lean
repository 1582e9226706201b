import ProviderProtocol.Proofs.Codec.Saved
import ProviderProtocol.Proofs.Server.Transparent
/-!
# Upgrading saved state

State saved under the version of the schema is read, and comes back as the value that it is read as; state of any other
version is the handler's, which gets it as it was saved (`saved_state_is_read_or_upgraded`).

Once the schema is there, either is an operation of its own (`readBack`, `upgradeBy`).
-/
namespace ProviderProtocol

/-- The saved state; one that is absent is empty. -/
def Wire.UpgradeRequest.saved (req : Wire.UpgradeRequest) : RawState := req.rawState.getD ⟨[], []⟩

namespace Server

open Operation

/-! ## With the schema at hand -/

def readBack (schema : Schema) (saved : RawState) : Operation σ Wire.UpgradeResponse := do
  let state ← orHalt "Unable to Read Previously Saved State" (saved.unmarshal schema.valueType)
  return ⟨some (← encode (some schema) state "Upgraded State"), []⟩

def upgradeBy (h : Handler σ UpgradeRequest UpgradeResponse) (schema : Schema) (req : Wire.UpgradeRequest) :
    Operation σ Wire.UpgradeResponse := do
  let resp ← call h ⟨req.version, req.saved⟩ ⟨.null schema.valueType, []⟩
  check resp.diagnostics
  return ⟨some (← encode (some schema) resp.state "Upgraded State"), wire resp.diagnostics⟩

def upgradeWith (h : Handler σ UpgradeRequest UpgradeResponse) (schema : Schema) (req : Wire.UpgradeRequest) :
    Operation σ Wire.UpgradeResponse :=
  if req.version = schema.version then readBack schema req.saved else upgradeBy h schema req

def upgradeCall (schema : Schema) (req : Wire.UpgradeRequest) : Call :=
  .resource req.typeName (.upgradeState ⟨req.version, req.saved⟩ ⟨.null schema.valueType, []⟩)

/-- Of this schema, the handler is called for all versions but one. -/
def upgradeCalls (schema : Schema) (req : Wire.UpgradeRequest) : List Call :=
  if req.version = schema.version then [] else [upgradeCall schema req]

theorem observes_upgradeWith (r : Resource σ) (schema : Schema) (req : Wire.UpgradeRequest) :
    Observes (upgradeWith r.upgradeState schema req) (upgradeWith (r.observed req.typeName).upgradeState schema req)
      fun _ => upgradeCalls schema req := by
  unfold upgradeWith upgradeCalls
  split
  · exact (observes_orHalt _ _).bind_silent fun state => (observes_orHalt _ _).bind_silent fun _ => observes_pure _
  · refine (observes_call _ _ _ _).bind_silent fun resp => (observes_check _).bind_silent fun _ => ?_
    exact (observes_orHalt _ _).bind_silent fun _ => observes_pure _

section

variable {server : Server σ} {req : Wire.UpgradeRequest} {r : Resource σ} {schema : Schema} {s s' : σ}

theorem run_upgradeResourceState (hr : server.registry.resource req.typeName = .ok r)
    (hschema : r.schema () {} s = (⟨some schema, []⟩, s')) :
    (server.upgradeResourceState req).run s =
      (answer (Wire.UpgradeResponse.mk none) (upgradeWith r.upgradeState schema req)).run s' := by
  unfold upgradeResourceState
  rw [run_answer_found hr, run_answer, run_answer, exec_bind, exec_schemaOf_eq_ok.2 hschema]
  rfl

theorem run_upgradeResourceState_observed (hr : server.registry.resource req.typeName = .ok r)
    (hschema : r.schema () {} s = (⟨some schema, []⟩, s')) :
    (server.observed.upgradeResourceState req).run (s, []) =
      (((server.upgradeResourceState req).run s).1, ((server.upgradeResourceState req).run s).2,
        .resource req.typeName .schema :: upgradeCalls schema req) := by
  have hobserved : server.observed.registry.resource req.typeName = .ok (r.observed req.typeName) := by
    show server.registry.observed.resource req.typeName = _
    rw [Registry.resource_observed, hr]
    rfl
  have hnoted : (r.observed req.typeName).schema () {} (s, []) =
      (⟨some schema, []⟩, s', [.resource req.typeName .schema]) := by
    show ((r.schema () {} s).1, (r.schema () {} s).2, _) = _
    rw [hschema]
    rfl
  rw [run_upgradeResourceState hobserved hnoted, run_upgradeResourceState hr hschema, run_answer, run_answer,
    observes_upgradeWith]
  rfl

/-! ## The version of the schema -/

/-- What is read of saved state is answered, and so is why there is nothing to be read. -/
structure ReadBack (schema : Schema) (saved : RawState) (resp : Wire.UpgradeResponse) : Prop where
  value : ∀ v, saved.unmarshal schema.valueType = .ok v → v.Sized →
    ∃ p, resp = ⟨some p, []⟩ ∧ Payload.decodeFor (some schema) (some p) = .ok v
  error : ∀ e, saved.unmarshal schema.valueType = .error e →
    resp = ⟨none, [(Diagnostic.ofError "Unable to Read Previously Saved State" e).toWire]⟩

theorem readBack_answer (hs : schema.WellFormed) (hdepth : schema.valueType.depth ≤ 500) (saved : RawState) (s : σ) :
    ReadBack schema saved ((answer (Wire.UpgradeResponse.mk none) (readBack schema saved)).run s).1 := by
  constructor
  · intro v hv hsized
    obtain ⟨hty, hwf⟩ := RawState.unmarshal_inhabits hs.valueType_canonical saved v hv
    obtain ⟨hencodes, hdecodes⟩ := Payload.encode_roundTrips hdepth hwf hsized
    obtain ⟨p, hp⟩ := hencodes.2 hty
    have hexec : exec (readBack schema saved) s = (.ok ⟨some p, []⟩, s) :=
      exec_bind_eq_ok.2 ⟨v, s, exec_orHalt_eq_ok.2 ⟨hv, rfl⟩,
        exec_bind_eq_ok.2 ⟨p, s, exec_orHalt_eq_ok.2 ⟨hp, rfl⟩, rfl⟩⟩
    refine ⟨p, ?_, hdecodes p hp⟩
    rw [run_answer, hexec]
  · intro e he
    rw [readBack, he]
    rfl

/-! ## Read or upgraded -/

/-- What comes of a request to upgrade saved state, whose resource has this schema. -/
structure ReadOrUpgraded (server : Server σ) (req : Wire.UpgradeRequest) (schema : Schema) (s : σ) : Prop where
  calls : (server.observed.upgradeResourceState req).run (s, []) =
    (((server.upgradeResourceState req).run s).1, ((server.upgradeResourceState req).run s).2,
      if req.version = schema.version then [.resource req.typeName .schema]
      else [.resource req.typeName .schema,
        .resource req.typeName (.upgradeState ⟨req.version, req.saved⟩ ⟨.null schema.valueType, []⟩)])
  read : req.version = schema.version → ReadBack schema req.saved ((server.upgradeResourceState req).run s).1
  empty : req.saved = ⟨[], []⟩ → req.saved.unmarshal schema.valueType = .ok (.null schema.valueType)
  unreadable_iff : (∃ e, req.saved.unmarshal schema.valueType = .error e) ↔ req.saved.Unreadable schema.valueType
  /-- What is read can be written again if the saved state and the objects of the schema are short enough. -/
  sized : req.saved.Sized → schema.valueType.Sized → ∀ v, req.saved.unmarshal schema.valueType = .ok v → v.Sized

end

/-- **State of the schema's version is read, and state of any other version is left to the handler.** -/
theorem saved_state_is_read_or_upgraded (server : Server σ) {req : Wire.UpgradeRequest} {r : Resource σ}
    {schema : Schema} {s s' : σ} (hr : server.registry.resource req.typeName = .ok r)
    (hschema : r.schema () {} s = (⟨some schema, []⟩, s')) (hs : schema.WellFormed)
    (hdepth : schema.valueType.depth ≤ 500) : ReadOrUpgraded server req schema s where
  calls := by
    rw [run_upgradeResourceState_observed hr hschema, upgradeCalls]
    split
    · rfl
    · rfl
  read hversion := by
    rw [run_upgradeResourceState hr hschema, upgradeWith, if_pos hversion]
    exact readBack_answer hs hdepth req.saved s'
  empty h := by
    rw [h]
    rfl
  unreadable_iff := RawState.unmarshal_error_iff hs.valueType_canonical req.saved
  sized hsaved hty := RawState.unmarshal_sized hsaved hty

/-! ### Endpoints are upgraded

The same document is asked for under the version of the schema and under another one. -/

def savedUnder (version : Int64) : Wire.UpgradeRequest := ⟨"endpoint", version, some ⟨savedEndpoint.json, []⟩⟩

theorem savedUnder_sized (version : Int64) : (savedUnder version).saved.Sized ∧ endpointSchema.valueType.Sized := by
  have hty : endpointSchema.valueType = .object [("id", .string), ("ports", .set .number)] := by decide
  have hid : (Text.Utf8.encode "e-1").length < 2 ^ 32 := by decide
  refine ⟨fun j hj => ?_, ?_⟩
  · have hread : savedJson = j := Option.some.inj (ofBytes?_savedEndpoint.symm.trans hj)
    rw [← hread]
    exact ⟨by decide, ⟨by decide, hid⟩, ⟨by decide, by decide, trivial, trivial⟩, trivial⟩
  · rw [hty]
    exact ⟨by decide, ⟨by decide, trivial⟩, ⟨by decide, trivial⟩, trivial⟩

theorem saved_state_is_read_or_upgraded_endpoint :
    (∃ p, ((idleServer.upgradeResourceState (savedUnder 0)).run ()).1 = ⟨some p, []⟩ ∧
      Payload.decodeFor (some endpointSchema) (some p) = .ok decodedEndpoint) ∧
    ((idleServer.observed.upgradeResourceState (savedUnder 3)).run ((), [])).2.2 =
      [.resource "endpoint" .schema, .resource "endpoint"
        (.upgradeState ⟨3, ⟨savedEndpoint.json, []⟩⟩ ⟨.null endpointSchema.valueType, []⟩)] ∧
    ((idleServer.upgradeResourceState ⟨"endpoint", 0, some ⟨[], [("id", "e-1")]⟩⟩).run ()).1 =
      ⟨none, [(Diagnostic.ofError "Unable to Read Previously Saved State" (.decode .flatmap)).toWire]⟩ := by
  have hsettled : ∀ req : Wire.UpgradeRequest, req.typeName = "endpoint" →
      ReadOrUpgraded idleServer req endpointSchema () := fun req hname =>
    saved_state_is_read_or_upgraded idleServer (by rw [hname]; rfl) rfl (by decide) (by decide)
  have hread : Json.ofBytes? (savedUnder 0).saved.json = some savedJson := ofBytes?_savedEndpoint
  have hvalue : (savedUnder 0).saved.unmarshal endpointSchema.valueType = .ok decodedEndpoint := by
    rw [RawState.unmarshal_of_ofBytes? hread]
    rfl
  have hcurrent := hsettled (savedUnder 0) rfl
  obtain ⟨hsaved, hty⟩ := savedUnder_sized 0
  refine ⟨(hcurrent.read rfl).value _ hvalue (hcurrent.sized hsaved hty _ hvalue), ?_, ?_⟩
  · rw [(hsettled (savedUnder 3) rfl).calls, if_neg (by decide)]
    rfl
  · exact ((hsettled ⟨"endpoint", 0, some ⟨[], [("id", "e-1")]⟩⟩ rfl).read rfl).error (.decode .flatmap) rfl

end Server

end ProviderProtocol
