import ProviderProtocol.Proofs.Server.Request
/-!
# Guarded steps

What an operation may call and has to answer is said of its outline (`Disciplined`).  The proof goes through the steps
of the operation: `Guards` says of a step and all that follows it which schemas are still to be asked for, and that the
handler is not reached before they have come nor without a fact `P`, which the steps before it have to supply.
-/
namespace ProviderProtocol

/-- Is this a call for a schema? -/
def Call.isSchema : Call → Bool
  | .provider .schema         => true
  | .resource _ .schema       => true
  | .resource _ .identitySchema => true
  | .dataSource _ .schema     => true
  | .listResource _ .schema   => true
  | .stateStore _ .schema     => true
  | _                         => false

/-- An error that says what is missing, and which name was looked up. -/
structure Diagnostic.ReportsMissing (d : Diagnostic) (kind name : String) : Prop where
  isError : d.isError = true
  summary : d.summary = "Missing " ++ kind ++ " Type"
  detail : d.detail = some ("No " ++ kind ++ " named " ++ Text.quote name ++ " is registered with this provider.")
  path : d.path = none

theorem Registry.missing_reports (kind name : String) : (missing kind name).ReportsMissing kind name :=
  ⟨rfl, rfl, rfl, rfl⟩

/-- What an operation with this outline may call in state `s` and has to answer. -/
structure Disciplined (o : Outline σ ρ) (s : σ) (resp : ρ) (calls : List Call) : Prop where
  /-- No schema is asked for beside those of the outline. -/
  asked : ∀ asks, o.asks = .ok asks → (calls.filter Call.isSchema).length ≤ asks.length
  once : (calls.filter fun c => !c.isSchema).length ≤ 1
  /-- The handler is its own, and everything is read before it is called. -/
  guarded : ∀ c ∈ calls, c.isSchema = false → o.handler c ∧ ∃ asks, o.asks = .ok asks ∧ Ask.Readable asks s
  /-- A request that names no registered type is answered by one diagnostic and calls nothing. -/
  unresolved : ∀ d, o.asks = .error d → resp = o.halted [d.toWire] ∧ calls = []
  /-- That diagnostic is an error of this kind that quotes the name, if there is one. -/
  missing : ∀ d name, o.asks = .error d → o.typeName = some name →
    d = Registry.missing o.kind name ∧ d.ReportsMissing o.kind name
  raised : ∀ asks, o.asks = .ok asks → Ask.raised asks s ≠ [] →
    resp = o.halted ((Ask.raised asks s).map Diagnostic.toWire) ∧ ∀ c ∈ calls, c.isSchema = true

/-- The run that keeps a log ends like the other one, and the calls in the log are such as the outline allows. -/
def Behaves (o : Outline σ ρ) (run : StateM σ ρ) (observed : StateM (σ × List Call) ρ) (s : σ) : Prop :=
  ∃ calls, observed.run (s, []) = ((run.run s).1, (run.run s).2, calls) ∧ Disciplined o s (run.run s).1 calls

namespace Operation

/-! ## Guarded steps -/

/-- The calls of a run that starts in state `s`: those for schemas, then that of the handler, if it comes to that. -/
structure Trail (handler : Call → Prop) (asks : List (Ask σ)) (P : Prop) (s : σ) (ending : Except (List Diagnostic) α)
    (asked handled : List Call) : Prop where
  schemas : ∀ c ∈ asked, c.isSchema = true
  asked_le : asked.length ≤ asks.length
  once : handled.length ≤ 1
  own : ∀ c ∈ handled, handler c ∧ c.isSchema = false
  readable : handled ≠ [] ∨ (∃ a, ending = .ok a) → P ∧ Ask.Readable asks s
  raised : Ask.raised asks s ≠ [] → ending = .error (Ask.raised asks s) ∧ handled = []

/-- The operation, observed, asks for these schemas and calls at most its handler, not before all of them have come and
not without `P`. -/
def Guards (handler : Call → Prop) (asks : List (Ask σ)) (P : Prop) (op : Operation σ α)
    (observed : Operation (σ × List Call) α) : Prop :=
  ∀ s log, ∃ asked handled, exec observed (s, log) = ((exec op s).1, (exec op s).2, log ++ (asked ++ handled)) ∧
    Trail handler asks P s (exec op s).1 asked handled

variable {handler : Call → Prop} {asks : List (Ask σ)} {P : Prop}

theorem Trail.silent {s : σ} {ending : Except (List Diagnostic) α} (h : (∃ a, ending = .ok a) → P) :
    Trail handler [] P s ending [] [] where
  schemas c hc := by cases hc
  asked_le := Nat.le_refl 0
  once := Nat.zero_le 1
  own c hc := by cases hc
  readable hr := ⟨hr.elim (absurd rfl) h, trivial⟩
  raised hr := absurd rfl hr

/-- With nothing left to ask for, the state does not matter. -/
theorem Trail.at_state {s s' : σ} {ending : Except (List Diagnostic) α} {asked handled : List Call}
    (h : Trail handler [] P s ending asked handled) : Trail handler [] P s' ending asked handled where
  schemas := h.schemas
  asked_le := h.asked_le
  once := h.once
  own := h.own
  readable hr := ⟨(h.readable hr).1, trivial⟩
  raised hr := absurd rfl hr

/-- What makes no calls may do anything once `P` is known. -/
theorem Guards.of_silent {op : Operation σ α} {op' : Operation (σ × List Call) α} (hP : P)
    (h : Observes op op' fun _ => []) : Guards handler [] P op op' :=
  fun s log => ⟨[], [], h s log, Trail.silent fun _ => hP⟩

/-- Steps that make no calls; what they find may be used for `P`. -/
theorem Guards.bind_silent {op : Operation σ α} {op' : Operation (σ × List Call) α} {f : α → Operation σ β}
    {f' : α → Operation (σ × List Call) β} (h : Observes op op' fun _ => [])
    (hf : ∀ a s s', exec op s = (.ok a, s') → Guards handler [] P (f a) (f' a)) :
    Guards handler [] P (op >>= f) (op' >>= f') := by
  intro s log
  rw [exec_bind, exec_bind, h s log, List.append_nil]
  cases he : exec op s with
  | mk ending s' =>
    cases ending with
    | ok a =>
      obtain ⟨asked, handled, hexec, trail⟩ := hf a s s' he s' log
      exact ⟨asked, handled, hexec, trail.at_state⟩
    | error ds =>
      refine ⟨[], [], ?_, Trail.silent fun ⟨a, ha⟩ => by cases ha⟩
      show (Except.error ds, s', log) = (Except.error ds, s', log ++ [])
      rw [List.append_nil]

theorem Guards.orHalt {summary : String} {e : Except ProviderError α} {f : α → Operation σ β}
    {f' : α → Operation (σ × List Call) β} (hf : ∀ a, e = .ok a → Guards handler [] P (f a) (f' a)) :
    Guards handler [] P (orHalt summary e >>= f) (orHalt summary e >>= f') :=
  Guards.bind_silent (observes_orHalt _ _) fun a _ _ he => hf a (exec_orHalt_eq_ok.1 he).1

/-- The call of the handler; what comes after it makes no more calls. -/
theorem Guards.call {h : Handler σ Request Response} {note : Request → Response → Call} {req : Request}
    {resp : Response} {f : Response → Operation σ β} {f' : Response → Operation (σ × List Call) β} (hP : P)
    (hown : handler (note req resp)) (hschema : (note req resp).isSchema = false)
    (hf : ∀ r, Observes (f r) (f' r) fun _ => []) :
    Guards handler [] P (call h req resp >>= f) (call (h.observed note) req resp >>= f') := by
  intro s log
  refine ⟨[], [note req resp], ((observes_call note h req resp).bind_silent hf) s log, ?_⟩
  exact {
    schemas := fun c hc => by cases hc
    asked_le := Nat.le_refl 0
    once := Nat.le_refl 1
    own := fun c hc => by
      rw [List.mem_singleton.1 hc]
      exact ⟨hown, hschema⟩
    readable := fun _ => ⟨hP, trivial⟩
    raised := fun hr => absurd rfl hr }

/-- Asking for a schema, where `Fits` is what the schema has to satisfy for the payloads to be read. -/
theorem Guards.ask {a : Ask σ} {note : Call} {Fits : β → Prop} {op : Operation σ β} {op' : Operation (σ × List Call) β}
    {f : β → Operation σ α} {f' : β → Operation (σ × List Call) α} (hnote : note.isSchema = true)
    (hobs : Observes op op' fun _ => [note])
    (hraised : ∀ s, (a.report s).1 ≠ [] → exec op s = (.error (a.report s).1, (a.report s).2))
    (hsilent : ∀ s, (a.report s).1 = [] → ∃ b, exec op s = (.ok b, (a.report s).2) ∧
      (Fits b → Ask.Readable asks (a.report s).2 → Ask.Readable (a :: asks) s))
    (hf : ∀ b, Guards handler asks (P ∧ Fits b) (f b) (f' b)) :
    Guards handler (a :: asks) P (op >>= f) (op' >>= f') := by
  intro s log
  rw [exec_bind, exec_bind, hobs s log]
  by_cases hreport : (a.report s).1 = []
  · obtain ⟨b, hb, hread⟩ := hsilent s hreport
    obtain ⟨asked, handled, hexec, trail⟩ := hf b (a.report s).2 (log ++ [note])
    have hrest : Ask.raised (a :: asks) s = Ask.raised asks (a.report s).2 := if_pos hreport
    rw [hb]
    refine ⟨note :: asked, handled, ?_, ?_⟩
    · show exec (f' b) ((a.report s).2, log ++ [note]) = _
      rw [hexec, List.append_assoc]
      rfl
    · exact {
        schemas := fun c hc => by
          rcases List.mem_cons.1 hc with rfl | hc
          · exact hnote
          · exact trail.schemas c hc
        asked_le := Nat.succ_le_succ trail.asked_le
        once := trail.once
        own := trail.own
        readable := fun hr => by
          obtain ⟨⟨hP, hfits⟩, hasks⟩ := trail.readable hr
          exact ⟨hP, hread hfits hasks⟩
        raised := fun hr => by
          rw [hrest] at hr ⊢
          exact trail.raised hr }
  · have hstop : Ask.raised (a :: asks) s = (a.report s).1 := if_neg hreport
    rw [hraised s hreport]
    refine ⟨[note], [], rfl, ?_⟩
    exact {
      schemas := fun c hc => by
        rw [List.mem_singleton.1 hc]
        exact hnote
      asked_le := Nat.succ_le_succ (Nat.zero_le _)
      once := Nat.zero_le 1
      own := fun c hc => by cases hc
      readable := fun hr => by
        rcases hr with hr | ⟨b, hb⟩
        · exact absurd rfl hr
        · cases hb
      raised := fun _ => ⟨by rw [hstop], rfl⟩ }

theorem Guards.schemaOf {h : Handler σ Unit SchemaResponse} {payloads : List (Option Payload)} {note : Call}
    {f : Option Schema → Operation σ α} {f' : Option Schema → Operation (σ × List Call) α}
    (hnote : note.isSchema = true)
    (hf : ∀ schema, Guards handler asks (P ∧ ∀ p ∈ payloads, ∃ v, Payload.decodeFor schema p = .ok v) (f schema)
      (f' schema)) :
    Guards handler (.schema h payloads :: asks) P (schemaOf h >>= f)
      (schemaOf (h.observed fun _ _ => note) >>= f') := by
  refine Guards.ask hnote (observes_schemaOf note h) ?_ ?_ hf
  · intro s hreport
    have hne : ¬ (h () {} s).1.diagnostics.isEmpty = true := fun he => hreport (List.isEmpty_iff.1 he)
    rw [exec_schemaOf, if_neg hne]
    rfl
  · intro s hreport
    have hnil : (h () {} s).1.diagnostics.isEmpty = true := List.isEmpty_iff.2 hreport
    have he : exec (Operation.schemaOf h) s = (.ok (h () {} s).1.schema, (h () {} s).2) := by
      rw [exec_schemaOf, if_pos hnil]
    exact ⟨_, he, fun hfits hasks => ⟨_, _, exec_schemaOf_eq_ok.1 he, hfits, hasks⟩⟩

theorem Guards.identitySchemaOf {h : Handler σ Unit IdentitySchemaResponse} {payloads : List (Option IdentityPayload)}
    {note : Call} {f : Option IdentitySchema → Operation σ α} {f' : Option IdentitySchema → Operation (σ × List Call) α}
    (hnote : note.isSchema = true)
    (hf : ∀ schema, Guards handler asks (P ∧ ∀ p ∈ payloads, ∃ v, IdentityPayload.decodeFor schema p = .ok v) (f schema)
      (f' schema)) :
    Guards handler (.identity h payloads :: asks) P (identitySchemaOf h >>= f)
      (identitySchemaOf (h.observed fun _ _ => note) >>= f') := by
  refine Guards.ask hnote (observes_identitySchemaOf note h) ?_ ?_ hf
  · intro s hreport
    have hne : ¬ (h () {} s).1.diagnostics.isEmpty = true := fun he => hreport (List.isEmpty_iff.1 he)
    rw [exec_identitySchemaOf, if_neg hne]
    rfl
  · intro s hreport
    have hnil : (h () {} s).1.diagnostics.isEmpty = true := List.isEmpty_iff.2 hreport
    have he : exec (Operation.identitySchemaOf h) s = (.ok (h () {} s).1.schema, (h () {} s).2) := by
      rw [exec_identitySchemaOf, if_pos hnil]
    exact ⟨_, he, fun hfits hasks => ⟨_, _, exec_identitySchemaOf_eq_ok.1 he, hfits, hasks⟩⟩

/-! ## From steps to answers -/

theorem Trail.disciplined {o : Outline σ ρ} {s : σ} {ending : Except (List Diagnostic) α} {resp : ρ}
    {asked handled : List Call} (hasks : o.asks = .ok asks) (h : Trail o.handler asks True s ending asked handled)
    (hresp : ∀ ds, ending = .error ds → resp = o.halted (ds.map Diagnostic.toWire)) :
    Disciplined o s resp (asked ++ handled) where
  asked asks' hasks' := by
    rw [hasks] at hasks'
    cases hasks'
    have hnone : handled.filter Call.isSchema = [] := by
      rw [List.filter_eq_nil_iff]
      intro c hc
      rw [(h.own c hc).2]
      exact Bool.false_ne_true
    rw [List.filter_append, hnone, List.append_nil]
    exact Nat.le_trans (List.length_filter_le _ _) h.asked_le
  once := by
    have hnone : asked.filter (fun c => !c.isSchema) = [] := by
      rw [List.filter_eq_nil_iff]
      intro c hc
      rw [h.schemas c hc]
      exact Bool.false_ne_true
    rw [List.filter_append, hnone, List.nil_append]
    exact Nat.le_trans (List.length_filter_le _ _) h.once
  guarded c hc hschema := by
    rcases List.mem_append.1 hc with hc | hc
    · rw [h.schemas c hc] at hschema
      cases hschema
    · exact ⟨(h.own c hc).1, asks, hasks, (h.readable (.inl (List.ne_nil_of_mem hc))).2⟩
  unresolved d hd := by
    rw [hasks] at hd
    cases hd
  missing d name hd := by
    rw [hasks] at hd
    cases hd
  raised asks' hasks' hr := by
    rw [hasks] at hasks'
    cases hasks'
    obtain ⟨hend, hhandled⟩ := h.raised hr
    refine ⟨hresp _ hend, fun c hc => ?_⟩
    rw [hhandled, List.append_nil] at hc
    exact h.schemas c hc

/-- One more call after a run that has come to its end. -/
theorem Trail.call {s : σ} {a : α} {asked : List Call} {c : Call}
    (h : Trail (fun _ => False) asks P s (.ok a) asked []) (hc : handler c) (hschema : c.isSchema = false) :
    Trail handler asks P s (.ok a : Except (List Diagnostic) α) asked [c] where
  schemas := h.schemas
  asked_le := h.asked_le
  once := Nat.le_refl 1
  own c' hc' := by
    rw [List.mem_singleton.1 hc']
    exact ⟨hc, hschema⟩
  readable _ := h.readable (.inr ⟨a, rfl⟩)
  raised hraised := by
    obtain ⟨hending, -⟩ := h.raised hraised
    cases hending

/-- An operation that is not resolved makes no calls. -/
theorem disciplined_of_unresolved {o : Outline σ ρ} {s : σ} {resp : ρ} {d : Diagnostic} (hasks : o.asks = .error d)
    (hresp : resp = o.halted [d.toWire])
    (hmissing : ∀ name, o.typeName = some name → d = Registry.missing o.kind name) : Disciplined o s resp [] where
  asked asks _ := Nat.zero_le asks.length
  once := Nat.zero_le 1
  guarded c hc := by cases hc
  unresolved d' hd := by
    rw [hasks] at hd
    cases hd
    exact ⟨hresp, rfl⟩
  missing d' name hd := by
    rw [hasks] at hd
    cases hd
    intro hname
    obtain rfl := hmissing name hname
    exact ⟨rfl, Registry.missing_reports o.kind name⟩
  raised asks hok := by
    rw [hasks] at hok
    cases hok

/-- An answer that starts by finding an implementation. -/
theorem Guards.behaves {o : Outline σ ρ} {e : Except Diagnostic ι} {e' : Except Diagnostic ι'} {observe : ι → ι'}
    {asksOf : ι → List (Ask σ)} {ops : ι → Operation σ ρ} {ops' : ι' → Operation (σ × List Call) ρ} {s : σ}
    (he : e' = e.map observe) (hasks : o.asks = e.map asksOf)
    (hmissing : ∀ d name, e = .error d → o.typeName = some name → d = Registry.missing o.kind name)
    (hops : ∀ i, Guards o.handler (asksOf i) True (ops i) (ops' (observe i))) :
    Behaves o (answer o.halted (found e >>= ops)) (answer o.halted (found e' >>= ops')) s := by
  subst he
  cases e with
  | error d => exact ⟨[], rfl, disciplined_of_unresolved hasks rfl fun name => hmissing d name rfl⟩
  | ok i =>
    obtain ⟨asked, handled, hexec, trail⟩ := hops i s []
    refine ⟨asked ++ handled, ?_, trail.disciplined hasks fun ds hds => ?_⟩
    · show (answer o.halted (ops' (observe i))).run (s, []) =
        (((answer o.halted (ops i)).run s).1, ((answer o.halted (ops i)).run s).2, asked ++ handled)
      rw [run_answer, run_answer, hexec, List.nil_append]
    · show ((answer o.halted (ops i)).run s).1 = _
      rw [run_answer, hds]

end Operation

theorem Registry.eq_missing_of_lookUp {kind name : String} {t : List (String × α)} {d : Diagnostic}
    (h : lookUp kind name t = .error d) : d = missing kind name := by
  unfold lookUp at h
  split at h
  · cases h
  · cases h
    rfl

theorem Registry.reportsMissing_of_lookUp {kind name : String} {t : List (String × α)} {d : Diagnostic}
    (h : lookUp kind name t = .error d) : d.ReportsMissing kind name := by
  rw [eq_missing_of_lookUp h]
  exact missing_reports kind name

/-- A failed look-up quotes the name that was looked up. -/
theorem Registry.missing_of_lookUp {kind name : String} {t : List (String × α)} (d : Diagnostic) (quoted : String)
    (h : lookUp kind name t = .error d) (hname : some name = some quoted) : d = missing kind quoted := by
  cases hname
  exact eq_missing_of_lookUp h

end ProviderProtocol
