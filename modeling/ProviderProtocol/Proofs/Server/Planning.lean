import ProviderProtocol.Proofs.Codec.Schema
import ProviderProtocol.Proofs.Plan.Marking
import ProviderProtocol.Proofs.Server.Discipline
import ProviderProtocol.Proofs.Server.Results
/-!
# Planning a change

A plan reads its request in full, prepares what doing nothing would plan (`PlanInput.Seeds`) and hands that to the plan
handler, once.  Preparing never fails: the payloads were decoded against one schema, so configuration and proposal have
its value type and marking cannot fault.  What the handler leaves untouched comes back in the response as it was
prepared (`planResourceChange_seeded`).
-/
namespace ProviderProtocol

/-- What a plan reads: the schemas in force and the decoded payloads. -/
structure PlanInput where
  schema : Option Schema
  identitySchema : Option IdentitySchema
  prior : Value
  proposed : Value
  config : Value
  priorIdentity : Option Value

namespace PlanInput

/-- In state `s` the request can be read in full: neither schema comes with a diagnostic and every payload decodes.
Asking for the schemas leaves state `s'`. -/
structure Reads (r : Resource σ) (req : Wire.PlanRequest) (s s' : σ) (x : PlanInput) : Prop where
  schemas : ∃ s₁, r.schema () {} s = (⟨x.schema, []⟩, s₁) ∧ r.identitySchema () {} s₁ = (⟨x.identitySchema, []⟩, s')
  prior : Payload.decodeFor x.schema req.priorState = .ok x.prior
  proposed : Payload.decodeFor x.schema req.proposedState = .ok x.proposed
  config : Payload.decodeFor x.schema req.config = .ok x.config
  priorIdentity : IdentityPayload.decodeFor x.identitySchema req.priorIdentity = .ok x.priorIdentity

/-- The state that the plan handler finds in its response. -/
structure Seeds (x : PlanInput) (seed : Value) : Prop where
  kept : x.proposed.isNull = true ∨ x.proposed.equal x.prior = true → seed = x.proposed
  marked : x.proposed.isNull = false → x.proposed.equal x.prior = false →
    ∃ schema, x.schema = some schema ∧ schema.markComputedUnknown x.config x.proposed = .ok seed

/-- What the plan handler is asked. -/
def request (x : PlanInput) (req : Wire.PlanRequest) : PlanRequest :=
  ⟨x.config, x.prior, x.proposed, req.priorPrivate, x.priorIdentity⟩

/-- The response as the plan handler gets it. -/
def response (x : PlanInput) (req : Wire.PlanRequest) (seed : Value) : PlanResponse :=
  ⟨seed, [], req.priorPrivate, x.priorIdentity, []⟩

/-- What is planned when the handler has left this response. -/
def outcome (x : PlanInput) (resp : PlanResponse) : Outcome :=
  ⟨x.schema, x.identitySchema, resp.plannedState, resp.plannedIdentity, resp.plannedPrivate, resp.requiresReplace,
    resp.diagnostics⟩

end PlanInput

/-! ## Marks are within the limits of payloads -/

section

variable {f : Path → Value → Value} (hf : ∀ p v, v.Sized → (f p v).Sized)

include hf

theorem Value.rewriteAt_sized {v : Value} : v.Sized → ∀ path : Path, (rewriteAt f path v).Sized := by
  induction v using Value.node_induction with
  | null t => exact fun h path => hf _ _ h
  | unknown t => exact fun h path => hf _ _ h
  | string t s => exact fun h path => hf _ _ h
  | number t n => exact fun h path => hf _ _ h
  | bool t b => exact fun h path => hf _ _ h
  | list t xs ih =>
    intro h path
    obtain ⟨hlen, hxs⟩ := h
    refine hf _ _ ⟨?_, Content.itemsSized_iff.2 fun y hy => ?_⟩
    · rw [rewriteItems_eq, List.length_mapIdx]
      exact hlen
    · rw [rewriteItems_eq] at hy
      obtain ⟨i, hi, rfl⟩ := List.mem_mapIdx.1 hy
      exact ih _ (List.getElem_mem hi) (Content.itemsSized_iff.1 hxs _ (List.getElem_mem hi)) _
  | map t es ih =>
    intro h path
    obtain ⟨hlen, hes⟩ := h
    refine hf _ _ ⟨?_, Content.entriesSized_iff.2 fun d hd => ?_⟩
    · rw [rewriteEntries_eq, List.length_map]
      exact hlen
    · rw [rewriteEntries_eq] at hd
      obtain ⟨e, he, rfl⟩ := List.mem_map.1 hd
      obtain ⟨hkey, hsized⟩ := Content.entriesSized_iff.1 hes e he
      exact ⟨hkey, ih e he hsized _⟩

end

theorem Schema.markWith_sized {s : Schema} {config : Value} (p : Path) (v : Value) (h : v.Sized) :
    (s.markWith config p v).Sized := by
  by_cases hm : s.Marked config p
  · rw [markWith_of_marked hm]
    trivial
  · rw [markWith_of_not_marked hm]
    exact h

/-! ## The seed -/

namespace PlanInput

variable {r : Resource σ} {req : Wire.PlanRequest} {s s' : σ} {x : PlanInput}

theorem Reads.inhabits (hx : x.Reads r req s s') {schema : Schema} (hschema : x.schema = some schema)
    (hs : schema.WellFormed) :
    x.proposed.Inhabits schema.valueType ∧ x.config.Inhabits schema.valueType := by
  obtain ⟨_, _, hproposed, hconfig, _⟩ := hx
  rw [hschema] at hproposed hconfig
  exact ⟨Payload.decodeFor_inhabits hs _ _ hproposed, Payload.decodeFor_inhabits hs _ _ hconfig⟩

theorem Reads.schema_eq_some (hx : x.Reads r req s s') : ∃ schema, x.schema = some schema := by
  obtain ⟨schema, hschema, _⟩ := Payload.decodeFor_eq_ok.1 hx.proposed
  exact ⟨schema, hschema⟩

/-- There is always a seed, and it conforms to the schema as the proposal does. -/
theorem Reads.exists_seed (hx : x.Reads r req s s') (hs : ∀ schema, x.schema = some schema → schema.WellFormed) :
    ∃ seed, Server.seedPlan x.schema x.config x.prior x.proposed = (pure seed : Operation σ Value) ∧ x.Seeds seed ∧
      (∀ schema, x.schema = some schema → seed.Inhabits schema.valueType) ∧ (x.proposed.Sized → seed.Sized) := by
  obtain ⟨schema, hschema⟩ := hx.schema_eq_some
  obtain ⟨hproposed, hconfig⟩ := hx.inhabits hschema (hs schema hschema)
  rw [hschema]
  by_cases hkeep : x.proposed.isNull = true ∨ x.proposed.equal x.prior = true
  · have hguard : ¬ (!x.proposed.isNull && !x.proposed.equal x.prior) = true := by
      rcases hkeep with h | h <;> simp [h]
    refine ⟨x.proposed, if_neg hguard, ⟨fun _ => rfl, fun hnull hequal => ?_⟩, fun schema' he => ?_, id⟩
    · rw [hnull, hequal] at hkeep
      simp at hkeep
    · cases he
      exact hproposed
  · obtain ⟨hnull, hequal⟩ := not_or.1 hkeep
    have hguard : (!x.proposed.isNull && !x.proposed.equal x.prior) = true := by simp [hnull, hequal]
    have hty : x.proposed.ty = x.config.ty := hproposed.1.trans hconfig.1.symm
    have hmark := Schema.markComputedUnknown_eq_ok (s := schema) hconfig.2 hproposed.2 hty
    have hkeeps : Value.Keeps (schema.markWith x.config) := Schema.markWith_keeps
    refine ⟨Value.rewriteAt (schema.markWith x.config) [] x.proposed, ?_, ⟨fun h => absurd h hkeep, fun _ _ => ?_⟩,
      fun schema' he => ?_, fun hsized => Value.rewriteAt_sized Schema.markWith_sized hsized []⟩
    · unfold Server.seedPlan
      dsimp only
      rw [if_pos hguard, hmark]
      rfl
    · exact ⟨schema, hschema, hmark⟩
    · cases he
      exact ⟨(hkeeps.rewriteAt_ty [] x.proposed).trans hproposed.1, hkeeps.rewriteAt_wellFormed hproposed.2 []⟩

end PlanInput

namespace Server

open Operation

/-! ## Reading, seeding and planning -/

def readPlan (r : Resource σ) (req : Wire.PlanRequest) : Operation σ PlanInput := do
  let schema ← schemaOf r.schema
  let identitySchema ← identitySchemaOf r.identitySchema
  let prior ← decode schema req.priorState "Prior State"
  let proposed ← decode schema req.proposedState "Proposed New State"
  let config ← decode schema req.config "Config"
  let priorIdentity ← decodeIdentity identitySchema req.priorIdentity "Prior Identity"
  return ⟨schema, identitySchema, prior, proposed, config, priorIdentity⟩

def planChange (r : Resource σ) (req : Wire.PlanRequest) (x : PlanInput) : Operation σ Outcome := do
  let seed ← seedPlan x.schema x.config x.prior x.proposed
  let resp ← call r.planChange (x.request req) (x.response req seed)
  return x.outcome resp

theorem consultPlan_eq (server : Server σ) (req : Wire.PlanRequest) :
    server.consultPlan req =
      found (server.registry.resource req.typeName) >>= fun r => readPlan r req >>= planChange r req := by
  unfold consultPlan readPlan planChange
  simp only [bind_assoc, pure_bind]
  rfl

theorem readPlan_eq_ok {r : Resource σ} {req : Wire.PlanRequest} {s s' : σ} {x : PlanInput} :
    exec (readPlan r req) s = (.ok x, s') ↔ x.Reads r req s s' := by
  unfold readPlan decode decodeIdentity
  simp only [exec_bind_eq_ok, exec_schemaOf_eq_ok, exec_identitySchemaOf_eq_ok, exec_orHalt_eq_ok, exec_pure_eq_ok]
  constructor
  · rintro ⟨schema, s₁, hs, identitySchema, s₂, hi, prior, _, ⟨hprior, rfl⟩, proposed, _, ⟨hproposed, rfl⟩, config, _,
      ⟨hconfig, rfl⟩, identity, _, ⟨hidentity, rfl⟩, rfl, rfl⟩
    exact ⟨⟨s₁, hs, hi⟩, hprior, hproposed, hconfig, hidentity⟩
  · rintro ⟨⟨s₁, hs, hi⟩, hprior, hproposed, hconfig, hidentity⟩
    exact ⟨_, s₁, hs, _, s', hi, _, _, ⟨hprior, rfl⟩, _, _, ⟨hproposed, rfl⟩, _, _, ⟨hconfig, rfl⟩, _, _,
      ⟨hidentity, rfl⟩, rfl, rfl⟩

theorem observes_readPlan (name : String) (r : Resource σ) (req : Wire.PlanRequest) :
    Observes (readPlan r req) (readPlan (r.observed name) req) (readCalls name r) := by
  refine (observes_schemaOf _ _).bind fun schema => (observes_identitySchemaOf _ _).bind_silent fun identitySchema => ?_
  refine (observes_orHalt _ _).bind_silent fun prior => (observes_orHalt _ _).bind_silent fun proposed => ?_
  refine (observes_orHalt _ _).bind_silent fun config => (observes_orHalt _ _).bind_silent fun identity => ?_
  exact observes_pure _

theorem observes_respond (stateName identityName : String) (make : Outcome → Payload → Option IdentityPayload → ρ)
    (o : Outcome) : Observes (respond stateName identityName make o : Operation σ ρ)
      (respond stateName identityName make o) fun _ => [] := by
  refine (observes_check _).bind_silent fun _ => (observes_orHalt _ _).bind_silent fun state => ?_
  exact (observes_orHalt _ _).bind_silent fun identity => observes_pure _

def planCall (req : Wire.PlanRequest) (x : PlanInput) (seed : Value) : Call :=
  .resource req.typeName (.planChange (x.request req) (x.response req seed))

/-- The plan handler is called once there is a seed. -/
def planChangeCalls (req : Wire.PlanRequest) (x : PlanInput) : σ → List Call :=
  callsOfBind (seedPlan x.schema x.config x.prior x.proposed) (fun _ => []) fun seed _ => [planCall req x seed]

theorem observes_planChange (r : Resource σ) (req : Wire.PlanRequest) (x : PlanInput) :
    Observes (planChange r req x) (planChange (r.observed req.typeName) req x) (planChangeCalls req x) :=
  (observes_seedPlan _ _ _ _).bind fun _ => (observes_call _ _ _ _).bind_silent fun _ => observes_pure _

def planCalls (server : Server σ) (req : Wire.PlanRequest) (s : σ) : List Call :=
  match server.registry.resource req.typeName with
  | .error _ => []
  | .ok r    => callsOfBind (readPlan r req) (readCalls req.typeName r) (planChangeCalls req) s

theorem run_planResourceChange_observed (server : Server σ) (req : Wire.PlanRequest) (s : σ) :
    (server.observed.planResourceChange req).run (s, []) =
      (((server.planResourceChange req).run s).1, ((server.planResourceChange req).run s).2,
        planCalls server req s) := by
  rw [planResourceChange_eq, planResourceChange_eq, consultPlan_eq, consultPlan_eq, planCalls]
  have hr : server.observed.registry.resource req.typeName =
      (server.registry.resource req.typeName).map fun r => r.observed req.typeName :=
    Registry.resource_observed _ _
  rw [hr]
  cases server.registry.resource req.typeName with
  | error d => rfl
  | ok r    =>
    have hconsult := (observes_readPlan req.typeName r req).bind fun x => observes_planChange r req x
    exact (hconsult.bind_silent fun o => observes_respond _ _ planAnswer o).answer _ s

/-! ## Diagnostics of a response -/

/-- What the second half of an operation is halted with: what the handler reported, or that something could not be
encoded. -/
def HaltsResponse (stateName identityName : String) (reported ds : List Diagnostic) : Prop :=
  ds = reported ∨ ∃ why, ds = [.ofError ("Error Encoding " ++ stateName) why] ∨
    ds = [.ofError ("Error Encoding " ++ identityName) why]

theorem haltsWith_respond (stateName identityName : String)
    (make : Outcome → Payload → Option IdentityPayload → ρ) (o : Outcome) :
    HaltsWith (respond stateName identityName make o : Operation σ ρ)
      (HaltsResponse stateName identityName o.diagnostics) := by
  refine (haltsWith_check (.inl rfl)).bind fun _ => ?_
  refine (haltsWith_orHalt (fun why => .inr ⟨why, .inl rfl⟩) _).bind fun state => ?_
  exact (haltsWith_orHalt (fun why => .inr ⟨why, .inr rfl⟩) _).bind fun identity => haltsWith_pure _

theorem returns_respond {stateName identityName : String} {make : Outcome → Payload → Option IdentityPayload → ρ}
    {o : Outcome} {P : ρ → Prop} (h : ∀ p i, P (make o p i)) :
    Returns (respond stateName identityName make o : Operation σ ρ) P :=
  returns_bind fun _ => returns_bind fun state => returns_bind fun identity => returns_pure (h state identity)

/-- A diagnostic that is answered is the handler's or tells that something could not be encoded. -/
theorem mem_reported_respond {stateName identityName : String} {make : Outcome → Payload → Option IdentityPayload → ρ}
    {halted : List WireDiagnostic → ρ} (reported : ρ → List WireDiagnostic) {o : Outcome} {s : σ}
    (hmake : ∀ p i, reported (make o p i) = wire o.diagnostics) (hhalted : ∀ ds, reported (halted ds) = ds)
    {d : WireDiagnostic}
    (hd : d ∈ reported (answered halted (exec (respond stateName identityName make o) s).1)) :
    d ∈ wire o.diagnostics ∨ d.summary = "Error Encoding " ++ stateName ∨
      d.summary = "Error Encoding " ++ identityName := by
  cases hexec : exec (respond stateName identityName make o : Operation σ ρ) s with
  | mk ending s' =>
    rw [hexec] at hd
    cases ending with
    | ok resp  =>
      have hreturns : Returns (respond stateName identityName make o : Operation σ ρ) fun resp =>
        reported resp = wire o.diagnostics := returns_respond hmake
      have hreported : reported resp = wire o.diagnostics := hreturns s resp s' hexec
      exact .inl (hreported ▸ hd)
    | error ds =>
      have hwire : d ∈ wire ds := hhalted (wire ds) ▸ hd
      rcases haltsWith_respond stateName identityName make o s ds s' hexec with rfl | ⟨why, rfl | rfl⟩
      · exact .inl hwire
      · cases List.mem_singleton.1 hwire
        exact .inr (.inl rfl)
      · cases List.mem_singleton.1 hwire
        exact .inr (.inr rfl)

/-! ## Plans end to end -/

section

variable {server : Server σ} {req : Wire.PlanRequest} {s s' : σ} {r : Resource σ} {x : PlanInput} {seed : Value}

theorem readCalls_of_reads (hx : x.Reads r req s s') :
    readCalls req.typeName r s =
      [.resource req.typeName .schema, .resource req.typeName .identitySchema] := by
  obtain ⟨s₁, hschema, _⟩ := hx.schemas
  unfold readCalls callsOfBind
  rw [exec_schemaOf_eq_ok.2 hschema]
  rfl

theorem planCalls_of_reads (hr : server.registry.resource req.typeName = .ok r) (hx : x.Reads r req s s')
    (hseed : seedPlan x.schema x.config x.prior x.proposed = (pure seed : Operation σ Value)) :
    planCalls server req s = [.resource req.typeName .schema, .resource req.typeName .identitySchema,
      planCall req x seed] := by
  unfold planCalls
  rw [hr]
  dsimp only
  rw [callsOfBind, readPlan_eq_ok.2 hx, readCalls_of_reads hx]
  dsimp only
  rw [planChangeCalls, callsOfBind, hseed]
  rfl

theorem exec_consultPlan (hr : server.registry.resource req.typeName = .ok r) (hx : x.Reads r req s s')
    (hseed : seedPlan x.schema x.config x.prior x.proposed = (pure seed : Operation σ Value)) :
    exec (server.consultPlan req) s =
      (.ok (x.outcome (r.planChange (x.request req) (x.response req seed) s').1),
        (r.planChange (x.request req) (x.response req seed) s').2) := by
  rw [consultPlan_eq, hr]
  show exec (readPlan r req >>= planChange r req) s = _
  rw [exec_bind, readPlan_eq_ok.2 hx]
  dsimp only
  rw [planChange, hseed, pure_bind, exec_bind, exec_call]
  rfl

/-- An untouched response conforms: the seed is of the value type, and the identity was decoded. -/
theorem conforms_of_untouched (hx : x.Reads r req s s')
    (hseed : ∀ schema, x.schema = some schema → seed.Inhabits schema.valueType)
    (hi : ∀ i, x.identitySchema = some i → i.WellFormed) : (x.outcome (x.response req seed)).Conforms := by
  obtain ⟨schema, hschema⟩ := hx.schema_eq_some
  refine ⟨⟨schema, hschema, (hseed schema hschema).1⟩, fun v hv => ?_⟩
  have hv : x.priorIdentity = some v := hv
  obtain ⟨i, hischema, hinhabits⟩ := IdentityPayload.decodeFor_inhabits hi (hv ▸ hx.priorIdentity)
  exact ⟨i, hischema, hinhabits.1⟩

/-- What a plan comes to that reads `x` and prepares `seed`. -/
structure Planned (server : Server σ) (req : Wire.PlanRequest) (s s' : σ) (r : Resource σ) (x : PlanInput)
    (seed : Value) : Prop where
  seeds : x.Seeds seed
  calls : (server.observed.planResourceChange req).run (s, []) =
    (((server.planResourceChange req).run s).1, ((server.planResourceChange req).run s).2,
      [.resource req.typeName .schema, .resource req.typeName .identitySchema,
        .resource req.typeName (.planChange ⟨x.config, x.prior, x.proposed, req.priorPrivate, x.priorIdentity⟩
          ⟨seed, [], req.priorPrivate, x.priorIdentity, []⟩)])
  /-- Marking is never what fails. -/
  modifying : ∀ d ∈ ((server.planResourceChange req).run s).1.diagnostics,
    d.summary = "Error Modifying Proposed New State" →
    d ∈ wire (r.planChange (x.request req) (x.response req seed) s').1.diagnostics
  untouched : (r.planChange (x.request req) (x.response req seed) s').1 = x.response req seed →
    (∀ schema, x.schema = some schema → schema.valueType.depth ≤ 500) → x.proposed.Sized →
    ∃ p, ((server.planResourceChange req).run s).1.plannedState = some p ∧
      Payload.decodeFor x.schema (some p) = .ok seed

/-- **Planning end to end.** -/
theorem planResourceChange_seeded (server : Server σ) {req : Wire.PlanRequest} {s s' : σ} {r : Resource σ}
    {x : PlanInput} (hr : server.registry.resource req.typeName = .ok r) (hx : x.Reads r req s s')
    (hs : ∀ schema, x.schema = some schema → schema.WellFormed)
    (hi : ∀ i, x.identitySchema = some i → i.WellFormed) : ∃ seed, Planned server req s s' r x seed := by
  obtain ⟨seed, hseed, hseeds, hfit, hsized⟩ := hx.exists_seed hs
  have hexec := exec_consultPlan hr hx hseed
  refine ⟨seed, hseeds, ?_, fun d hd hsummary => ?_, fun huntouched hdepth hsmall => ?_⟩
  · rw [run_planResourceChange_observed, planCalls_of_reads hr hx hseed]
    rfl
  · rw [planResourceChange_eq, run_answer_of_exec hexec] at hd
    rcases mem_reported_respond Wire.PlanResponse.diagnostics (fun _ _ => rfl) (fun _ => rfl) hd with
      hd | hd | hd
    · exact hd
    · rw [hsummary] at hd
      exact absurd hd (by decide)
    · rw [hsummary] at hd
      exact absurd hd (by decide)
  · rw [huntouched] at hexec
    rw [planResourceChange_eq]
    obtain ⟨p, i, hresp, hp, _⟩ :=
      (delivered_of_exec hexec _ _ planAnswer).full_of_conforms rfl (conforms_of_untouched hx hfit hi)
    refine ⟨p, by rw [hresp]; rfl, ?_⟩
    obtain ⟨schema, hschema⟩ := hx.schema_eq_some
    have hencode : Payload.encodeFor x.schema seed = .ok p := hp
    rw [hschema] at hencode ⊢
    exact (Payload.encode_roundTrips (hdepth schema hschema) (hfit schema hschema).2 (hsized hsmall)).2 p hencode

end

/-! ### A machine is created

Nothing is there yet, and the configuration leaves both identifiers to the provider. -/

def machineResource : Resource Unit where
  schema := reportSchema (some Schema.machineSchema)

def machineServer : Server Unit := ⟨({ provider := {} : Registry Unit }).addResource "machine" machineResource, {}⟩

def newMachine : Value := Schema.machine (.null .string) [Schema.disk (.ofString "a")]

def machineRequest : Wire.PlanRequest :=
  ⟨"machine", none, some ⟨newMachine.toMsgpack.write, []⟩, some ⟨newMachine.toMsgpack.write, []⟩, [3], none⟩

def machineInput : PlanInput :=
  ⟨some Schema.machineSchema, none, .null Schema.machineSchema.valueType, newMachine, newMachine, none⟩

theorem machineInput_reads : machineInput.Reads machineResource machineRequest () () where
  schemas := ⟨(), rfl, rfl⟩
  prior := rfl
  proposed := rfl
  config := rfl
  priorIdentity := rfl

theorem newMachine_sized : newMachine.Sized :=
  have hlabel : (Text.Utf8.encode "a").length < 2 ^ 32 := by decide
  ⟨by decide, ⟨by decide, by decide, ⟨by decide, ⟨by decide, trivial⟩, ⟨by decide, hlabel⟩, trivial⟩, trivial⟩,
    ⟨by decide, trivial⟩, trivial⟩

theorem planResourceChange_seeded_machine :
    ∃ seed, machineInput.Seeds seed ∧ seed.nodeAt? [1] = some (.unknown .string) ∧
      ∃ p, ((machineServer.planResourceChange machineRequest).run ()).1.plannedState = some p ∧
        Payload.decodeFor (some Schema.machineSchema) (some p) = .ok seed := by
  obtain ⟨seed, hplanned⟩ := planResourceChange_seeded machineServer rfl machineInput_reads
    (fun schema h => by cases h; decide) (fun i h => by cases h)
  refine ⟨seed, hplanned.seeds, ?_, hplanned.untouched rfl (fun schema h => by cases h; decide) newMachine_sized⟩
  obtain ⟨schema, hschema, hmark⟩ := hplanned.seeds.marked rfl rfl
  cases hschema
  have hmarked : Schema.machineSchema.markComputedUnknown newMachine newMachine = .ok (Schema.machine (.unknown .string)
      [.known Schema.diskTy (.map [("id", .unknown .string), ("label", .ofString "a")])]) := rfl
  have heq := hmarked.symm.trans hmark
  cases heq
  rfl

end Server

end ProviderProtocol
