import ProviderProtocol.Proofs.Server.Errors
import ProviderProtocol.Proofs.Server.Listing
/-!
# Where listings stop

A listing stops at the first result that cannot be encoded, whose event the sink wants no more after, or that is the
last one under a positive limit (`Halts`); else at its end.  The events are the encodings of the results up to there,
with diagnostics alone in the place of a result that cannot be encoded, and nothing follows them
(`listResource_streams`).

Which listing that is, and what its results are encoded with, is said without the operation that starts it: it is the
registered list resource's own (`ListBasis.Found`), or the first step before it has failed (`Declines`).
-/
namespace ProviderProtocol.Server

open Operation

/-! ## Where a listing stops -/

/-- The result at index `i` ends the listing: it cannot be encoded, its event is answered by no, or it is the one that
the limit allows as the last. -/
def Halts (ctx : ListContext) (limit : Int) (results : List ListResult) (answers : List Bool) (i : Nat) : Prop :=
  (∃ r, results[i]? = some r ∧ ∀ event, ¬ Encodes ctx r event) ∨ answers[i]? = some false ∨ limit = (i + 1 : Nat)

/-- The first `k` results are all that are looked at, by themselves or because the last of them ends the listing. -/
def StopsAt (ctx : ListContext) (limit : Int) (results : List ListResult) (answers : List Bool) (k : Nat) : Prop :=
  k = results.length ∨ ∃ i, k = i + 1 ∧ Halts ctx limit results answers i

/-- The events for these results: their encodings, or diagnostics alone for the last one. -/
inductive Reported (ctx : ListContext) (results : List ListResult) : List Wire.ListEvent → Prop
  | whole {events : List Wire.ListEvent} : List.Forall₂ (Encodes ctx) results events → Reported ctx results events
  | cut {before : List ListResult} {r : ListResult} {events : List Wire.ListEvent} {d : Diagnostic} :
    results = before ++ [r] → List.Forall₂ (Encodes ctx) before events → (∀ event, ¬ Encodes ctx r event) →
    d.isError = true → Reported ctx results (events ++ [{ diagnostics := [d.toWire] }])

/-- What a sink gets, with its answers, from a listing that pushes these results, each with what it is told. -/
structure Streamed (ctx : ListContext) (limit : Int) (pushed : List (ListResult × Bool))
    (log : List (Wire.ListEvent × Bool)) : Prop where
  /-- The events are those of the results up to the first at which the listing stops. -/
  reported : ∃ k, StopsAt ctx limit (pushed.map Prod.fst) (log.map Prod.snd) k ∧
    (∀ j < k, ¬ StopsAt ctx limit (pushed.map Prod.fst) (log.map Prod.snd) j) ∧
    Reported ctx ((pushed.map Prod.fst).take k) (log.map Prod.fst)
  /-- More are wanted as long as no result has ended the listing. -/
  told : ∀ i p, pushed[i]? = some p →
    (p.2 = true ↔ ∀ j ≤ i, ¬ Halts ctx limit (pushed.map Prod.fst) (log.map Prod.snd) j)
  /-- Only the last event can be answered by no. -/
  continues : ∀ x ∈ log.dropLast, x.2 = true
  length_le : 0 < limit → log.length ≤ limit

section

variable {ctx : ListContext} {room : Int} {r : ListResult} {results : List ListResult} {answer : Bool}
  {answers : List Bool}

theorem halts_zero : Halts ctx room (r :: results) (answer :: answers) 0 ↔
    (∀ event, ¬ Encodes ctx r event) ∨ answer = false ∨ room = 1 := by
  simp [Halts]

theorem halts_succ {i : Nat} : Halts ctx room (r :: results) (answer :: answers) (i + 1) ↔
    Halts ctx (room - 1) results answers i := by
  have hroom : room = (i + 1 + 1 : Nat) ↔ room - 1 = (i + 1 : Nat) := by omega
  unfold Halts
  rw [List.getElem?_cons_succ, List.getElem?_cons_succ, hroom]

theorem not_stopsAt_zero : ¬ StopsAt ctx room (r :: results) answers 0 := by
  simp [StopsAt]

theorem stopsAt_one (h : Halts ctx room results answers 0) : StopsAt ctx room results answers 1 := .inr ⟨0, rfl, h⟩

theorem stopsAt_succ (h : ¬ Halts ctx room (r :: results) (answer :: answers) 0) {k : Nat} :
    StopsAt ctx room (r :: results) (answer :: answers) (k + 1) ↔ StopsAt ctx (room - 1) results answers k := by
  unfold StopsAt
  rw [List.length_cons, Nat.succ_inj]
  refine or_congr_right ⟨?_, ?_⟩
  · rintro ⟨i, hk, hi⟩
    cases i with
    | zero   => exact absurd hi h
    | succ i => exact ⟨i, by omega, halts_succ.1 hi⟩
  · rintro ⟨i, rfl, hi⟩
    exact ⟨i + 1, rfl, halts_succ.2 hi⟩

theorem streamed_nil : Streamed ctx room [] [] where
  reported := ⟨0, .inl rfl, fun j hj => absurd hj (Nat.not_lt_zero j), .whole .nil⟩
  told i p hp := by cases hp
  continues := List.forall_mem_nil _
  length_le := Int.le_of_lt

/-- A listing that ends with its first result: whatever is pushed after it is told to stop. -/
theorem streamed_of_halts {rest : List (ListResult × Bool)} {event : Wire.ListEvent}
    (h : Halts ctx room (r :: rest.map Prod.fst) [answer] 0) (hreported : Reported ctx [r] [event])
    (htold : ∀ p ∈ rest, p.2 = false) : Streamed ctx room ((r, false) :: rest) [(event, answer)] where
  reported := ⟨1, stopsAt_one h, fun j hj => by
    obtain rfl : j = 0 := by omega
    exact not_stopsAt_zero, hreported⟩
  told i p hp := by
    have hfalse : p.2 = false := by
      rcases List.mem_cons.1 (List.mem_of_getElem? hp) with rfl | hmem
      · rfl
      · exact htold p hmem
    have hhalts : ¬ ∀ j ≤ i, ¬ Halts ctx room (r :: rest.map Prod.fst) [answer] j := fun hnone =>
      hnone 0 (Nat.zero_le i) h
    rw [hfalse]
    exact iff_of_false Bool.false_ne_true hhalts
  continues x hx := by cases hx
  length_le hroom := by
    rw [List.length_singleton]
    omega

theorem reported_cons {events : List Wire.ListEvent} {event : Wire.ListEvent} (hencodes : Encodes ctx r event)
    (h : Reported ctx results events) : Reported ctx (r :: results) (event :: events) := by
  cases h with
  | whole hall                       => exact .whole (.cons hencodes hall)
  | cut hresults hbefore hunfit hd =>
    rw [hresults, ← List.cons_append, ← List.cons_append]
    exact .cut rfl (.cons hencodes hbefore) hunfit hd

theorem streamed_cons {rest : List (ListResult × Bool)} {log : List (Wire.ListEvent × Bool)} {event : Wire.ListEvent}
    (hencodes : Encodes ctx r event) (hroom : room ≠ 1) (h : Streamed ctx (room - 1) rest log) :
    Streamed ctx room ((r, true) :: rest) ((event, true) :: log) := by
  have hgoes : ¬ Halts ctx room (r :: rest.map Prod.fst) (true :: log.map Prod.snd) 0 := by
    rw [halts_zero]
    rintro (hno | hanswer | hone)
    · exact hno event hencodes
    · cases hanswer
    · exact hroom hone
  refine ⟨?_, ?_, ?_, ?_⟩
  · obtain ⟨k, hk, hmin, hreported⟩ := h.reported
    refine ⟨k + 1, (stopsAt_succ hgoes).2 hk, ?_, reported_cons hencodes hreported⟩
    intro j hj
    cases j with
    | zero   => exact not_stopsAt_zero
    | succ j => exact fun hstops => hmin j (Nat.lt_of_succ_lt_succ hj) ((stopsAt_succ hgoes).1 hstops)
  · intro i p hp
    cases i with
    | zero   =>
      cases hp
      refine iff_of_true rfl fun j hj => ?_
      obtain rfl : j = 0 := Nat.le_zero.1 hj
      exact hgoes
    | succ i =>
      rw [h.told i p hp]
      constructor
      · intro hall j hj
        cases j with
        | zero   => exact hgoes
        | succ j => exact fun hhalts => hall j (Nat.le_of_succ_le_succ hj) (halts_succ.1 hhalts)
      · exact fun hall j hj hhalts => hall (j + 1) (Nat.succ_le_succ hj) (halts_succ.2 hhalts)
  · cases log with
    | nil       => exact List.forall_mem_nil _
    | cons y ys => exact List.forall_mem_cons.2 ⟨rfl, h.continues⟩
  · intro hpos
    have hlength := h.length_le (by omega)
    rw [List.length_cons]
    omega

theorem Streams.streamed {pushed : List (ListResult × Bool)} {log : List (Wire.ListEvent × Bool)}
    (h : Streams ctx room pushed log) : Streamed ctx room pushed log := by
  induction h with
  | ended room => exact streamed_nil
  | unfit hunfit hd htold =>
    exact streamed_of_halts (halts_zero.2 (.inl hunfit)) (.cut (List.nil_append _).symm .nil hunfit hd) htold
  | last hencodes hlast htold =>
    exact streamed_of_halts (halts_zero.2 (.inr hlast)) (.whole (.cons hencodes .nil)) htold
  | next hencodes hroom _ ih => exact streamed_cons hencodes hroom ih

end

/-! ## How a listing starts -/

/-- What a listing starts from: the implementations that its type name stands for, and the schemas they report. -/
structure ListBasis (σ : Type) where
  listResource : ListResource σ
  resource : Resource σ
  listSchema : Option Schema
  schema : Option Schema
  identitySchema : Option IdentitySchema

/-- Both implementations are registered, and they report the schemas one after the other and no diagnostics. -/
structure ListBasis.Found (basis : ListBasis σ) (server : Server σ) (req : Wire.ListRequest) (s s' : σ) : Prop where
  listed : server.registry.listResource req.typeName = .ok basis.listResource
  registered : server.registry.resource req.typeName = .ok basis.resource
  reported : ∃ s₁ s₂, basis.listResource.schema () {} s = (⟨basis.listSchema, []⟩, s₁) ∧
    basis.resource.schema () {} s₁ = (⟨basis.schema, []⟩, s₂) ∧
    basis.resource.identitySchema () {} s₂ = (⟨basis.identitySchema, []⟩, s')

/-- The first step that fails before a listing, with the diagnostics it fails with and the state it leaves. -/
inductive Declines (server : Server σ) (req : Wire.ListRequest) (s : σ) : List Diagnostic → σ → Prop
  | unlisted {d : Diagnostic} : server.registry.listResource req.typeName = .error d →
    d.ReportsMissing "ListResource" req.typeName → Declines server req s [d] s
  | unregistered {l : ListResource σ} {d : Diagnostic} : server.registry.listResource req.typeName = .ok l →
    server.registry.resource req.typeName = .error d → d.ReportsMissing "Resource" req.typeName →
    Declines server req s [d] s
  | listSchema {l : ListResource σ} {r : Resource σ} {listSchema : Option Schema} {ds : List Diagnostic} {s' : σ} :
    server.registry.listResource req.typeName = .ok l → server.registry.resource req.typeName = .ok r →
    l.schema () {} s = (⟨listSchema, ds⟩, s') → ds ≠ [] → Declines server req s ds s'
  | schema {l : ListResource σ} {r : Resource σ} {listSchema schema : Option Schema} {ds : List Diagnostic}
    {s₁ s' : σ} :
    server.registry.listResource req.typeName = .ok l → server.registry.resource req.typeName = .ok r →
    l.schema () {} s = (⟨listSchema, []⟩, s₁) → r.schema () {} s₁ = (⟨schema, ds⟩, s') → ds ≠ [] →
    Declines server req s ds s'
  | identitySchema {l : ListResource σ} {r : Resource σ} {listSchema schema : Option Schema}
    {identitySchema : Option IdentitySchema} {ds : List Diagnostic} {s₁ s₂ s' : σ} :
    server.registry.listResource req.typeName = .ok l → server.registry.resource req.typeName = .ok r →
    l.schema () {} s = (⟨listSchema, []⟩, s₁) → r.schema () {} s₁ = (⟨schema, []⟩, s₂) →
    r.identitySchema () {} s₂ = (⟨identitySchema, ds⟩, s') → ds ≠ [] → Declines server req s ds s'
  | config {basis : ListBasis σ} {why : ProviderError} {s' : σ} : basis.Found server req s s' →
    Payload.decodeFor basis.listSchema req.config = .error why →
    Declines server req s [.ofError "Error Decoding Config" why] s'

theorem Declines.ne_nil {server : Server σ} {req : Wire.ListRequest} {s s' : σ} {ds : List Diagnostic}
    (h : Declines server req s ds s') : ds ≠ [] := by
  cases h with
  | unlisted                     => exact List.cons_ne_nil _ _
  | unregistered                 => exact List.cons_ne_nil _ _
  | listSchema _ _ _ hds         => exact hds
  | schema _ _ _ _ hds           => exact hds
  | identitySchema _ _ _ _ _ hds => exact hds
  | config                       => exact List.cons_ne_nil _ _

section

variable {server : Server σ} {req : Wire.ListRequest} {s s' : σ}

/-- **What is started is the listing of the registered list resource**, with the decoded configuration; its results
are encoded with the schemas of the resource. -/
theorem exec_startListing_eq_ok {listing : σ → Listing σ} {ctx : ListContext} :
    exec (startListing server req) s = (.ok (listing, ctx), s') ↔
      ∃ (basis : ListBasis σ) (config : Value), basis.Found server req s s' ∧
        Payload.decodeFor basis.listSchema req.config = .ok config ∧
        listing = basis.listResource.list ⟨config, req.includeObject, req.limit⟩ ∧
        ctx = ⟨req.includeObject, req.limit, basis.schema, basis.identitySchema⟩ := by
  constructor
  · intro h
    obtain ⟨l, _, hl, h⟩ := exec_bind_eq_ok.1 h
    obtain ⟨hlisted, rfl⟩ := exec_found_eq_ok.1 hl
    obtain ⟨r, _, hr, h⟩ := exec_bind_eq_ok.1 h
    obtain ⟨hregistered, rfl⟩ := exec_found_eq_ok.1 hr
    obtain ⟨listSchema, s₁, hlistSchema, h⟩ := exec_bind_eq_ok.1 h
    obtain ⟨schema, s₂, hschema, h⟩ := exec_bind_eq_ok.1 h
    obtain ⟨identitySchema, s₃, hidentitySchema, h⟩ := exec_bind_eq_ok.1 h
    obtain ⟨config, _, hdecoded, h⟩ := exec_bind_eq_ok.1 h
    obtain ⟨hconfig, rfl⟩ := exec_orHalt_eq_ok.1 hdecoded
    obtain ⟨hstarted, rfl⟩ := exec_pure_eq_ok.1 h
    cases hstarted
    refine ⟨⟨l, r, listSchema, schema, identitySchema⟩, config, ⟨hlisted, hregistered, s₁, s₂, ?_⟩, hconfig, rfl, rfl⟩
    exact ⟨exec_schemaOf_eq_ok.1 hlistSchema, exec_schemaOf_eq_ok.1 hschema,
      exec_identitySchemaOf_eq_ok.1 hidentitySchema⟩
  · rintro ⟨basis, config, ⟨hlisted, hregistered, s₁, s₂, hlistSchema, hschema, hidentitySchema⟩, hconfig, rfl, rfl⟩
    rw [exec_startListing hlisted hregistered, readListing, exec_bind_of_ok (exec_schemaOf_eq_ok.2 hlistSchema),
      exec_bind_of_ok (exec_schemaOf_eq_ok.2 hschema), exec_bind_of_ok (exec_identitySchemaOf_eq_ok.2 hidentitySchema),
      decode, hconfig]
    rfl

/-- **A listing that does not start has failed at one of these steps**, and the steps after it are not taken. -/
theorem exec_startListing_eq_error {ds : List Diagnostic} :
    exec (startListing server req) s = (.error ds, s') ↔ Declines server req s ds s' := by
  constructor
  · intro h
    rcases exec_bind_eq_error.1 h with hl | ⟨l, _, hl, h⟩
    · obtain ⟨d, hunlisted, rfl, rfl⟩ := exec_found_eq_error.1 hl
      exact .unlisted hunlisted (Registry.reportsMissing_of_lookUp hunlisted)
    obtain ⟨hlisted, rfl⟩ := exec_found_eq_ok.1 hl
    rcases exec_bind_eq_error.1 h with hr | ⟨r, _, hr, h⟩
    · obtain ⟨d, hunregistered, rfl, rfl⟩ := exec_found_eq_error.1 hr
      exact .unregistered hlisted hunregistered (Registry.reportsMissing_of_lookUp hunregistered)
    obtain ⟨hregistered, rfl⟩ := exec_found_eq_ok.1 hr
    rcases exec_bind_eq_error.1 h with hunreported | ⟨listSchema, s₁, hlistSchema, h⟩
    · obtain ⟨hds, _, hschema⟩ := exec_schemaOf_eq_error.1 hunreported
      exact .listSchema hlisted hregistered hschema hds
    have hlistSchema := exec_schemaOf_eq_ok.1 hlistSchema
    rcases exec_bind_eq_error.1 h with hunreported | ⟨schema, s₂, hschema, h⟩
    · obtain ⟨hds, _, hschema⟩ := exec_schemaOf_eq_error.1 hunreported
      exact .schema hlisted hregistered hlistSchema hschema hds
    have hschema := exec_schemaOf_eq_ok.1 hschema
    rcases exec_bind_eq_error.1 h with hunreported | ⟨identitySchema, s₃, hidentitySchema, h⟩
    · obtain ⟨hds, _, hidentitySchema⟩ := exec_identitySchemaOf_eq_error.1 hunreported
      exact .identitySchema hlisted hregistered hlistSchema hschema hidentitySchema hds
    have hidentitySchema := exec_identitySchemaOf_eq_ok.1 hidentitySchema
    rcases exec_bind_eq_error.1 h with hundecoded | ⟨config, _, _, h⟩
    · obtain ⟨why, hconfig, rfl, rfl⟩ := exec_orHalt_eq_error.1 hundecoded
      have hfound : ListBasis.Found ⟨l, r, listSchema, schema, identitySchema⟩ server req s s₃ :=
        ⟨hlisted, hregistered, s₁, s₂, hlistSchema, hschema, hidentitySchema⟩
      exact .config hfound hconfig
    exact absurd h not_exec_pure_eq_error
  · intro h
    cases h with
    | unlisted hunlisted _ =>
      rw [startListing_eq, hunlisted]
      rfl
    | unregistered hlisted hunregistered _ =>
      rw [startListing_eq, hlisted, hunregistered]
      rfl
    | listSchema hlisted hregistered hlistSchema hds =>
      rw [exec_startListing hlisted hregistered, readListing,
        exec_bind_of_error (exec_schemaOf_eq_error.2 ⟨hds, _, hlistSchema⟩)]
    | schema hlisted hregistered hlistSchema hschema hds =>
      rw [exec_startListing hlisted hregistered, readListing, exec_bind_of_ok (exec_schemaOf_eq_ok.2 hlistSchema),
        exec_bind_of_error (exec_schemaOf_eq_error.2 ⟨hds, _, hschema⟩)]
    | identitySchema hlisted hregistered hlistSchema hschema hidentitySchema hds =>
      rw [exec_startListing hlisted hregistered, readListing, exec_bind_of_ok (exec_schemaOf_eq_ok.2 hlistSchema),
        exec_bind_of_ok (exec_schemaOf_eq_ok.2 hschema),
        exec_bind_of_error (exec_identitySchemaOf_eq_error.2 ⟨hds, _, hidentitySchema⟩)]
    | config hfound hconfig =>
      obtain ⟨hlisted, hregistered, s₁, s₂, hlistSchema, hschema, hidentitySchema⟩ := hfound
      rw [exec_startListing hlisted hregistered, readListing, exec_bind_of_ok (exec_schemaOf_eq_ok.2 hlistSchema),
        exec_bind_of_ok (exec_schemaOf_eq_ok.2 hschema),
        exec_bind_of_ok (exec_identitySchemaOf_eq_ok.2 hidentitySchema), decode, hconfig]
      rfl

end

/-! ## Listings of a server -/

/-- A listing that is over before it starts, or runs to its end: the state of the provider afterwards and what the sink
got, with its answers. -/
inductive ListCourse (server : Server σ) (req : Wire.ListRequest) (s : σ) :
    σ → List (Wire.ListEvent × Bool) → Prop
  | refused {ds : List Diagnostic} {s' : σ} {answer : Bool} :
    Declines server req s ds s' → ds ≠ [] → ListCourse server req s s' [({ diagnostics := wire ds }, answer)]
  | streamed {basis : ListBasis σ} {config : Value} {s' s'' : σ} {pushed : List (ListResult × Bool)}
    {log : List (Wire.ListEvent × Bool)} :
    basis.Found server req s s' → Payload.decodeFor basis.listSchema req.config = .ok config →
    (basis.listResource.list ⟨config, req.includeObject, req.limit⟩ s').Pushes pushed s'' →
    Streamed ⟨req.includeObject, req.limit, basis.schema, basis.identitySchema⟩ req.limit pushed log →
    ListCourse server req s s'' log

/-- **A caller gets the encodings of the results, in order, up to the first at which the listing stops**, and nothing
after that; a listing that does not start is one event of diagnostics alone.  `log` is what the sink gets and what it
answers. -/
theorem listResource_streams (server : Server σ) (emit : Sink τ) (req : Wire.ListRequest) (s : σ) (t : τ) :
    ∃ log, server.listResource emit.recorded req s (t, []) =
        ((server.listResource emit req s t).1, (server.listResource emit req s t).2, log) ∧
      ListCourse server req s (server.listResource emit req s t).1 log := by
  obtain ⟨log, hlog⟩ := listResource_recorded server emit req s t []
  refine ⟨log, hlog, ?_⟩
  cases hstart : exec (startListing server req) s with
  | mk ending s' =>
    cases ending with
    | error ds =>
      rw [listResource_of_error hstart, listResource_of_error hstart] at hlog
      rw [listResource_of_error hstart]
      cases hlog
      have hdeclines : Declines server req s ds s' := exec_startListing_eq_error.1 hstart
      exact .refused hdeclines hdeclines.ne_nil
    | ok x =>
      obtain ⟨listing, ctx⟩ := x
      obtain ⟨pushed, events, s'', t', hpushes, hstreams, hrun⟩ :=
        runListing_streams ctx emit (listing s') t [] 0 (fun hpos => hpos)
      have hclosed : server.listResource emit.recorded req s (t, []) = (s'', t', events) := by
        rw [listResource_of_ok hstart, listInto_eq, hrun, List.nil_append]
      rw [hclosed] at hlog
      have hstate : (server.listResource emit req s t).1 = s'' := (congrArg Prod.fst hlog).symm
      have hevents : log = events := (congrArg (fun x => x.2.2) hlog).symm
      rw [hstate, hevents]
      obtain ⟨basis, config, hfound, hconfig, rfl, rfl⟩ := exec_startListing_eq_ok.1 hstart
      have hroom : req.limit - (0 : Nat) = req.limit := by omega
      rw [hroom] at hstreams
      exact .streamed hfound hconfig hpushes hstreams.streamed

/-- A caller that answers as it was told to beforehand. -/
def scripted : Sink (List Bool) := fun _ answers => (answers.headD false, answers.tail)

/-- Pushes three results whatever it is told; the last one has an identity, for which there is no schema. -/
def pushBuckets (s : Unit) : Listing Unit :=
  .push ⟨none, "logs", none, []⟩ fun _ => .push ⟨none, "cache", none, []⟩ fun _ =>
    .push ⟨some (.null .bool), "media", none, []⟩ fun _ => .finish s

def bucketLister : Server Unit :=
  ⟨(({ provider := {} } : Registry Unit).addResource "bucket" {}).addListResource "bucket"
    { schema := reportSchema (some (.new 0)), list := fun _ => pushBuckets }, {}⟩

/-- What a caller with these answers gets from the listing, the answers that are left, and how the listing went. -/
def BucketsListed (req : Wire.ListRequest) (answers left : List Bool) (log : List (Wire.ListEvent × Bool)) : Prop :=
  bucketLister.listResource scripted.recorded req () (answers, []) = ((), left, log) ∧
    ListCourse bucketLister req () () log

/-- The second event is refused; the third result cannot be encoded; the limit is reached; nothing of the name is
registered. -/
theorem listResource_streams_bucket :
    BucketsListed ⟨"bucket", none, false, 0⟩ [true, false, true] [true]
      [({ displayName := "logs" }, true), ({ displayName := "cache" }, false)] ∧
    BucketsListed ⟨"bucket", none, false, 5⟩ [true, true, true, true] [true]
      [({ displayName := "logs" }, true), ({ displayName := "cache" }, true),
        ({ diagnostics := wire [.ofError "Error Encoding List Result Identity" (.encode .noIdentitySchema)] }, true)] ∧
    BucketsListed ⟨"bucket", none, false, 1⟩ [true, true] [true] [({ displayName := "logs" }, true)] ∧
    BucketsListed ⟨"folder", none, false, 0⟩ [true, true] [true]
      [({ diagnostics := wire [Registry.missing "ListResource" "folder"] }, true)] := by
  have hlisted : ∀ {req answers left log},
      bucketLister.listResource scripted.recorded req () (answers, []) = ((), left, log) →
        BucketsListed req answers left log := by
    intro req answers left log hrun
    obtain ⟨log', hlog, hcourse⟩ := listResource_streams bucketLister scripted req () answers
    refine ⟨hrun, ?_⟩
    rw [hlog] at hrun
    cases hrun
    exact hcourse
  exact ⟨hlisted rfl, hlisted rfl, hlisted rfl, hlisted rfl⟩

end ProviderProtocol.Server
