import ProviderProtocol.Proofs.Server.Outcome
/-!
# What becomes of a handler's diagnostics

The diagnostics of a handler are answered as they are, errors and warnings in their order, if there is an error among
them or if what the handler left can be encoded.  Between these two they get lost: a handler that only warns, and leaves
a state or an identity that does not conform to its schema, is answered with the error of the encoding alone
(`handler_diagnostics_kept_iff`, `read_warning_lost`).
-/
namespace ProviderProtocol

/-- What is reported, against the diagnostics of a handler that left something `encodable` or not. -/
structure DiagnosticsKept (ds : List Diagnostic) (encodable : Prop) (reported : List WireDiagnostic) : Prop where
  kept_iff : (Server.wire ds).Sublist reported ↔ ds = [] ∨ hasErrors ds = true ∨ encodable
  verbatim : hasErrors ds = true ∨ encodable → reported = Server.wire ds

namespace DiagnosticsKept

variable {ds : List Diagnostic} {encodable : Prop}

theorem of_eq {reported : List WireDiagnostic} (h : hasErrors ds = true ∨ encodable)
    (heq : reported = Server.wire ds) : DiagnosticsKept ds encodable reported where
  kept_iff := by
    subst heq
    exact ⟨fun _ => .inr h, fun _ => List.Sublist.refl _⟩
  verbatim _ := heq

/-- One error instead of them: it cannot be one of theirs, for they have none. -/
theorem of_unfit {d : Diagnostic} (hds : hasErrors ds = false) (hunfit : ¬ encodable) (hd : d.isError = true) :
    DiagnosticsKept ds encodable [d.toWire] where
  kept_iff := by
    constructor
    · intro hsub
      by_cases hnil : ds = []
      · exact .inl hnil
      · have hne : Server.wire ds ≠ [] := fun h => hnil (List.map_eq_nil_iff.1 h)
        have heq : Server.wire ds = [d.toWire] := (List.sublist_singleton.1 hsub).resolve_left hne
        have herror : hasErrors ds = true := by
          rw [← Server.reportsError_wire, heq]
          simp [reportsError, Diagnostic.isError_toWire, hd]
        rw [hds] at herror
        cases herror
    · rintro (rfl | herror | hfit)
      · exact List.nil_sublist _
      · rw [hds] at herror
        cases herror
      · exact absurd hfit hunfit
  verbatim := by
    rintro (herror | hfit)
    · rw [hds] at herror
      cases herror
    · exact absurd hfit hunfit

end DiagnosticsKept

theorem Delivered.diagnosticsKept {o : Outcome} {make : Payload → Option IdentityPayload → ρ}
    {halted : List WireDiagnostic → ρ} {reported : ρ → List WireDiagnostic} {resp : ρ}
    (hmake : ∀ p i, reported (make p i) = Server.wire o.diagnostics) (hhalted : ∀ ds, reported (halted ds) = ds)
    (h : Delivered o make halted resp) : DiagnosticsKept o.diagnostics o.Conforms (reported resp) := by
  cases h with
  | refused herror    => exact .of_eq (.inl herror) (hhalted _)
  | full hds hp hi    => exact .of_eq (.inr (Outcome.conforms_of_encoded hp hi)) (hmake _ _)
  | unfit hds hno hd  =>
    rw [hhalted]
    exact .of_unfit hds hno hd

namespace Server

open Operation

/-- For every request whose handler is asked in state `s`.  A delete and a null import leave nothing to encode. -/
structure HandlerDiagnosticsKept (server : Server σ) (s : σ) : Prop where
  upgradeResourceState : ∀ req o s', exec (server.consultUpgrade req) s = (.ok o, s') →
    req.version ≠ (o.schema.map Schema.version).getD 0 →
    DiagnosticsKept o.diagnostics o.Conforms ((server.upgradeResourceState req).run s).1.diagnostics
  readResource : ∀ req o s', exec (server.consultRead req) s = (.ok o, s') →
    DiagnosticsKept o.diagnostics o.Conforms ((server.readResource req).run s).1.diagnostics
  planResourceChange : ∀ req o s', exec (server.consultPlan req) s = (.ok o, s') →
    DiagnosticsKept o.diagnostics o.Conforms ((server.planResourceChange req).run s).1.diagnostics
  createOrUpdate : ∀ req o s', exec (server.consultApply req) s = (.ok (.changed o), s') →
    DiagnosticsKept o.diagnostics o.Conforms ((server.applyResourceChange req).run s).1.diagnostics
  delete : ∀ req ds s', exec (server.consultApply req) s = (.ok (.deleted ds), s') →
    DiagnosticsKept ds True ((server.applyResourceChange req).run s).1.diagnostics
  importResourceState : ∀ req o s', exec (server.consultImport req) s = (.ok o, s') →
    DiagnosticsKept o.diagnostics (o.state.isNull = true ∨ o.Conforms)
      ((server.importResourceState req).run s).1.diagnostics
  readDataSource : ∀ req o s', exec (server.consultData req) s = (.ok o, s') →
    DiagnosticsKept o.diagnostics o.Conforms ((server.readDataSource req).run s).1.diagnostics

/-- An answer with nothing to encode ends at the check. -/
theorem answered_check_diagnostics {halted : List WireDiagnostic → ρ} {reported : ρ → List WireDiagnostic}
    {ds : List Diagnostic} (resp : ρ) (hresp : reported resp = wire ds) (hhalted : ∀ ds, reported (halted ds) = ds)
    (s : σ) : reported (answered halted (exec (do check ds; return resp : Operation σ ρ) s).1) = wire ds := by
  rw [exec_bind, exec_check]
  by_cases hds : hasErrors ds = true
  · rw [if_pos hds]
    exact hhalted _
  · rw [if_neg hds]
    exact hresp

theorem importResourceState_diagnosticsKept (server : Server σ) {req : Wire.ImportRequest} {o : Outcome} {s s' : σ}
    (h : exec (server.consultImport req) s = (.ok o, s')) :
    DiagnosticsKept o.diagnostics (o.state.isNull = true ∨ o.Conforms)
      ((server.importResourceState req).run s).1.diagnostics := by
  rw [importResourceState_eq, run_answer_of_exec h, respondImported]
  by_cases hnull : o.state.isNull = true
  · rw [if_pos hnull]
    exact .of_eq (.inr (.inl hnull)) (answered_check_diagnostics (Wire.ImportResponse.mk [] _) rfl (fun _ => rfl) s')
  · rw [if_neg hnull]
    have hfit : (o.state.isNull = true ∨ o.Conforms) ↔ o.Conforms := or_iff_right hnull
    rw [hfit]
    exact (delivered_respond _ _ (importAnswer req.typeName) _ o s').diagnosticsKept (fun _ _ => rfl) fun _ => rfl

/-- **A handler's diagnostics are all in the answer exactly if there are none, if there is an error among them, or if
state and identity are encoded**; in the last two cases the answer has no others. -/
theorem handler_diagnostics_kept_iff (server : Server σ) (s : σ) : server.HandlerDiagnosticsKept s where
  upgradeResourceState _ _ _ h hversion :=
    (server.delivered_upgradeResourceState h hversion).diagnosticsKept (fun _ _ => rfl) fun _ => rfl
  readResource req _ _ h := by
    rw [readResource_eq]
    exact (delivered_of_exec h _ _ _).diagnosticsKept (fun _ _ => rfl) fun _ => rfl
  planResourceChange req _ _ h := by
    rw [planResourceChange_eq]
    exact (delivered_of_exec h _ _ _).diagnosticsKept (fun _ _ => rfl) fun _ => rfl
  createOrUpdate req o s' h := by
    rw [applyResourceChange_eq_consultApply, run_answer_of_exec h]
    exact (delivered_respond _ _ stateAnswer _ o s').diagnosticsKept (fun _ _ => rfl) fun _ => rfl
  delete req ds s' h := by
    rw [applyResourceChange_eq_consultApply, run_answer_of_exec h]
    exact .of_eq (.inr trivial)
      (answered_check_diagnostics (Wire.StateResponse.mk req.plannedState none _ _) rfl (fun _ => rfl) s')
  importResourceState _ _ _ h := server.importResourceState_diagnosticsKept h
  readDataSource req _ _ h := by
    rw [readDataSource_eq]
    exact (delivered_of_exec h _ _ _).diagnosticsKept (fun _ _ => rfl) fun _ => rfl

/-! ### Beacons

Reading a beacon and creating one warn that it is dim.  What the read leaves is not a beacon. -/

def beaconSchema : Schema := (Schema.new 0).addAttribute "on" (.optional .bool)

def dimWarning : Diagnostic := .warning "Beacon is dim" none

def beaconResource : Resource Unit where
  schema := reportSchema (some beaconSchema)
  read _ resp := pure { resp with newState := .ofBool true, diagnostics := [dimWarning] }
  create _ resp := pure { resp with diagnostics := [dimWarning] }

def beaconServer : Server Unit := ⟨({ provider := {} : Registry Unit }).addResource "beacon" beaconResource, {}⟩

def createdBeacon : Outcome := ⟨some beaconSchema, none, .null beaconSchema.valueType, none, [], [], [dimWarning]⟩

def readBeacon : Outcome := ⟨some beaconSchema, none, .ofBool true, none, [], [], [dimWarning]⟩

theorem readBeacon_not_conforms : ¬ readBeacon.Conforms := by
  rintro ⟨⟨s, hs, hty⟩, -⟩
  cases hs
  exact absurd hty (by decide)

theorem handler_diagnostics_kept_iff_beacon :
    ((beaconServer.applyResourceChange ⟨"beacon", none, none, none, [], none⟩).run ()).1.diagnostics =
        [⟨2, "Beacon is dim", "", none⟩] ∧
      ¬ (wire readBeacon.diagnostics).Sublist
        ((beaconServer.readResource ⟨"beacon", none, [], none⟩).run ()).1.diagnostics := by
  have h := handler_diagnostics_kept_iff beaconServer ()
  constructor
  · have hfit : createdBeacon.Conforms := ⟨⟨_, rfl, rfl⟩, fun v hv => by cases hv⟩
    exact (h.createOrUpdate ⟨"beacon", none, none, none, [], none⟩ createdBeacon () rfl).verbatim (.inr hfit)
  · intro hsub
    rcases (h.readResource ⟨"beacon", none, [], none⟩ readBeacon () rfl).kept_iff.1 hsub with hnil | herror | hfit
    · cases hnil
    · cases herror
    · exact readBeacon_not_conforms hfit

/-- The warning of the handler is not in the answer. -/
theorem read_warning_lost :
    ∃ o s', exec (beaconServer.consultRead ⟨"beacon", none, [], none⟩) () = (.ok o, s') ∧
      wire o.diagnostics = [⟨2, "Beacon is dim", "", none⟩] ∧
      ((beaconServer.readResource ⟨"beacon", none, [], none⟩).run ()).1 =
        ⟨none, none, [], [⟨1, "Error Encoding New State",
          "Encode error: value of type bool does not conform to object(\x7bon=bool\x7d)", none⟩]⟩ ∧
      ¬ (wire o.diagnostics).Sublist
        ((beaconServer.readResource ⟨"beacon", none, [], none⟩).run ()).1.diagnostics := by
  refine ⟨readBeacon, (), rfl, rfl, rfl, fun hsub => ?_⟩
  have heq : wire readBeacon.diagnostics = [⟨1, "Error Encoding New State",
      "Encode error: value of type bool does not conform to object(\x7bon=bool\x7d)", none⟩] :=
    hsub.eq_of_length rfl
  exact absurd (congrArg (List.map WireDiagnostic.severity) heq) (by decide)

end Server

end ProviderProtocol
