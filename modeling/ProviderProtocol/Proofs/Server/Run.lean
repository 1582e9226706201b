import ProviderProtocol.Server.Operation
/-!
# Running operations

How an operation ends and the state it leaves, step by step: a bind goes on only from a result (`exec_bind`), a handler
always returns (`exec_call`), and what only looks at values leaves the state alone (`exec_orHalt`, `exec_check`).
-/
namespace ProviderProtocol.Operation

/-- How an operation ends when it starts in this state, and the state it leaves. -/
def exec (op : Operation σ α) (s : σ) : Except (List Diagnostic) α × σ := op.run.run s

theorem exec_pure (a : α) (s : σ) : exec (pure a) s = (.ok a, s) := rfl

theorem exec_bind (op : Operation σ α) (f : α → Operation σ β) (s : σ) :
    exec (op >>= f) s = match exec op s with
      | (.ok a, s')     => exec (f a) s'
      | (.error ds, s') => (.error ds, s') := by
  unfold exec
  rw [ExceptT.run_bind, StateT.run_bind]
  obtain ⟨r, s'⟩ := op.run.run s
  cases r with
  | ok a     => rfl
  | error ds => rfl

theorem exec_bind_of_ok {op : Operation σ α} {s s' : σ} {a : α} (h : exec op s = (.ok a, s')) (f : α → Operation σ β) :
    exec (op >>= f) s = exec (f a) s' := by rw [exec_bind, h]

theorem exec_bind_of_error {op : Operation σ α} {s s' : σ} {ds : List Diagnostic} (h : exec op s = (.error ds, s'))
    (f : α → Operation σ β) : exec (op >>= f) s = (.error ds, s') := by rw [exec_bind, h]

theorem exec_call (h : Handler σ Request Response) (req : Request) (resp : Response) (s : σ) :
    exec (call h req resp) s = (.ok (h req resp s).1, (h req resp s).2) := rfl

theorem exec_orHalt (summary : String) (e : Except ProviderError α) (s : σ) :
    exec (orHalt summary e) s = (e.mapError fun why => [.ofError summary why], s) := by
  cases e with
  | ok a    => rfl
  | error e => rfl

theorem exec_found (e : Except Diagnostic α) (s : σ) : exec (found e) s = (e.mapError fun d => [d], s) := by
  cases e with
  | ok a    => rfl
  | error d => rfl

theorem exec_check (ds : List Diagnostic) (s : σ) :
    exec (check ds) s = (if hasErrors ds then .error ds else .ok (), s) := by
  unfold check
  split
  · rfl
  · rfl

theorem exec_schemaOf (h : Handler σ Unit SchemaResponse) (s : σ) :
    exec (schemaOf h) s =
      (if (h () {} s).1.diagnostics.isEmpty then .ok (h () {} s).1.schema else .error (h () {} s).1.diagnostics,
        (h () {} s).2) := by
  unfold schemaOf
  rw [exec_bind, exec_call]
  dsimp only
  split
  · rfl
  · rfl

theorem exec_identitySchemaOf (h : Handler σ Unit IdentitySchemaResponse) (s : σ) :
    exec (identitySchemaOf h) s =
      (if (h () {} s).1.diagnostics.isEmpty then .ok (h () {} s).1.schema else .error (h () {} s).1.diagnostics,
        (h () {} s).2) := by
  unfold identitySchemaOf
  rw [exec_bind, exec_call]
  dsimp only
  split
  · rfl
  · rfl

/-! ## Operations with a result -/

theorem exec_bind_eq_ok {op : Operation σ α} {f : α → Operation σ β} {s s'' : σ} {b : β} :
    exec (op >>= f) s = (.ok b, s'') ↔ ∃ a s', exec op s = (.ok a, s') ∧ exec (f a) s' = (.ok b, s'') := by
  rw [exec_bind]
  obtain ⟨r, s'⟩ := exec op s
  constructor
  · intro h
    cases r with
    | ok a     => exact ⟨a, s', rfl, h⟩
    | error ds => cases h
  · rintro ⟨a, s₁, he, h⟩
    cases he
    exact h

theorem exec_pure_eq_ok {a b : α} {s s' : σ} : exec (pure a) s = (.ok b, s') ↔ a = b ∧ s = s' := by
  rw [exec_pure, Prod.mk.injEq, Except.ok.injEq]

theorem exec_orHalt_eq_ok {summary : String} {e : Except ProviderError α} {a : α} {s s' : σ} :
    exec (orHalt summary e) s = (.ok a, s') ↔ e = .ok a ∧ s = s' := by
  rw [exec_orHalt]
  constructor
  · intro h
    cases e with
    | ok b =>
      cases h
      exact ⟨rfl, rfl⟩
    | error why => cases h
  · rintro ⟨rfl, rfl⟩
    rfl

theorem exec_found_eq_ok {e : Except Diagnostic α} {a : α} {s s' : σ} :
    exec (found e) s = (.ok a, s') ↔ e = .ok a ∧ s = s' := by
  rw [exec_found]
  constructor
  · intro h
    cases e with
    | ok b    =>
      cases h
      exact ⟨rfl, rfl⟩
    | error d => cases h
  · rintro ⟨rfl, rfl⟩
    rfl

theorem exec_schemaOf_eq_ok {h : Handler σ Unit SchemaResponse} {schema : Option Schema} {s s' : σ} :
    exec (schemaOf h) s = (.ok schema, s') ↔ h () {} s = (⟨schema, []⟩, s') := by
  rw [exec_schemaOf]
  obtain ⟨⟨found, ds⟩, s₁⟩ := h () {} s
  constructor
  · intro he
    cases ds with
    | nil =>
      cases he
      rfl
    | cons d ds => cases he
  · intro he
    cases he
    rfl

theorem exec_identitySchemaOf_eq_ok {h : Handler σ Unit IdentitySchemaResponse} {schema : Option IdentitySchema}
    {s s' : σ} : exec (identitySchemaOf h) s = (.ok schema, s') ↔ h () {} s = (⟨schema, []⟩, s') := by
  rw [exec_identitySchemaOf]
  obtain ⟨⟨found, ds⟩, s₁⟩ := h () {} s
  constructor
  · intro he
    cases ds with
    | nil =>
      cases he
      rfl
    | cons d ds => cases he
  · intro he
    cases he
    rfl

/-! ## Halted operations -/

theorem exec_bind_eq_error {op : Operation σ α} {f : α → Operation σ β} {s s'' : σ} {ds : List Diagnostic} :
    exec (op >>= f) s = (.error ds, s'') ↔ exec op s = (.error ds, s'') ∨
      ∃ a s', exec op s = (.ok a, s') ∧ exec (f a) s' = (.error ds, s'') := by
  rw [exec_bind]
  obtain ⟨r, s'⟩ := exec op s
  cases r with
  | ok a     =>
    constructor
    · exact fun h => .inr ⟨a, s', rfl, h⟩
    · rintro (h | ⟨b, s₁, he, h⟩)
      · cases h
      · cases he
        exact h
  | error es =>
    constructor
    · intro h
      cases h
      exact .inl rfl
    · rintro (h | ⟨b, s₁, he, h⟩)
      · cases h
        rfl
      · cases he

theorem not_exec_pure_eq_error {a : α} {s s' : σ} {ds : List Diagnostic} :
    ¬ exec (pure a : Operation σ α) s = (.error ds, s') := by
  intro h
  rw [exec_pure] at h
  cases h

theorem exec_found_eq_error {e : Except Diagnostic α} {ds : List Diagnostic} {s s' : σ} :
    exec (found e) s = (.error ds, s') ↔ ∃ d, e = .error d ∧ ds = [d] ∧ s = s' := by
  rw [exec_found]
  constructor
  · intro h
    cases e with
    | ok a    => cases h
    | error d =>
      cases h
      exact ⟨d, rfl, rfl, rfl⟩
  · rintro ⟨d, rfl, rfl, rfl⟩
    rfl

theorem exec_orHalt_eq_error {summary : String} {e : Except ProviderError α} {ds : List Diagnostic} {s s' : σ} :
    exec (orHalt summary e) s = (.error ds, s') ↔ ∃ why, e = .error why ∧ ds = [.ofError summary why] ∧ s = s' := by
  rw [exec_orHalt]
  constructor
  · intro h
    cases e with
    | ok a      => cases h
    | error why =>
      cases h
      exact ⟨why, rfl, rfl, rfl⟩
  · rintro ⟨why, rfl, rfl, rfl⟩
    rfl

theorem exec_schemaOf_eq_error {h : Handler σ Unit SchemaResponse} {ds : List Diagnostic} {s s' : σ} :
    exec (schemaOf h) s = (.error ds, s') ↔ ds ≠ [] ∧ ∃ schema, h () {} s = (⟨schema, ds⟩, s') := by
  rw [exec_schemaOf]
  obtain ⟨⟨schema, es⟩, s₁⟩ := h () {} s
  constructor
  · intro he
    cases es with
    | nil       => cases he
    | cons e es =>
      cases he
      exact ⟨List.cons_ne_nil _ _, schema, rfl⟩
  · rintro ⟨hds, schema', he⟩
    cases he
    cases ds with
    | nil       => exact absurd rfl hds
    | cons d ds => rfl

theorem exec_identitySchemaOf_eq_error {h : Handler σ Unit IdentitySchemaResponse} {ds : List Diagnostic} {s s' : σ} :
    exec (identitySchemaOf h) s = (.error ds, s') ↔ ds ≠ [] ∧ ∃ schema, h () {} s = (⟨schema, ds⟩, s') := by
  rw [exec_identitySchemaOf]
  obtain ⟨⟨schema, es⟩, s₁⟩ := h () {} s
  constructor
  · intro he
    cases es with
    | nil       => cases he
    | cons e es =>
      cases he
      exact ⟨List.cons_ne_nil _ _, schema, rfl⟩
  · rintro ⟨hds, schema', he⟩
    cases he
    cases ds with
    | nil       => exact absurd rfl hds
    | cons d ds => rfl

/-- Whatever the operation is halted with is such. -/
def HaltsWith (op : Operation σ α) (P : List Diagnostic → Prop) : Prop :=
  ∀ s ds s', exec op s = (.error ds, s') → P ds

theorem HaltsWith.bind {op : Operation σ α} {f : α → Operation σ β} {P : List Diagnostic → Prop} (h : HaltsWith op P)
    (hf : ∀ a, HaltsWith (f a) P) : HaltsWith (op >>= f) P := by
  intro s ds s'' hexec
  rw [exec_bind] at hexec
  cases hop : exec op s with
  | mk ending s' =>
    rw [hop] at hexec
    cases ending with
    | error es =>
      cases hexec
      exact h _ _ _ hop
    | ok a     => exact hf a s' ds s'' hexec

theorem haltsWith_pure (a : α) {P : List Diagnostic → Prop} : HaltsWith (pure a : Operation σ α) P := by
  intro s ds s' h
  rw [exec_pure] at h
  cases h

theorem haltsWith_orHalt {summary : String} {P : List Diagnostic → Prop} (h : ∀ why, P [.ofError summary why])
    (e : Except ProviderError α) : HaltsWith (orHalt summary e : Operation σ α) P := by
  intro s ds s' hexec
  rw [exec_orHalt] at hexec
  cases e with
  | ok a      => cases hexec
  | error why =>
    cases hexec
    exact h why

theorem haltsWith_check {ds : List Diagnostic} {P : List Diagnostic → Prop} (h : P ds) :
    HaltsWith (check ds : Operation σ Unit) P := by
  intro s es s' hexec
  rw [exec_check] at hexec
  split at hexec
  · cases hexec
    exact h
  · cases hexec

/-! ## Responses -/

/-- The response of a request in terms of how its operation ends. -/
theorem run_answer (halted : List WireDiagnostic → ρ) (op : Operation σ ρ) (s : σ) :
    (answer halted op).run s = (match (exec op s).1 with
      | .ok resp  => resp
      | .error ds => halted (ds.map Diagnostic.toWire), (exec op s).2) := by
  unfold answer exec
  rw [StateT.run_bind]
  obtain ⟨r, s'⟩ := op.run.run s
  cases r with
  | ok resp  => rfl
  | error ds => rfl

theorem run_answer_found {halted : List WireDiagnostic → ρ} {e : Except Diagnostic α} {a : α} (h : e = .ok a)
    (f : α → Operation σ ρ) (s : σ) : (answer halted (found e >>= f)).run s = (answer halted (f a)).run s := by
  rw [h]
  rfl

theorem run_answer_call {halted : List WireDiagnostic → ρ} (h : Handler σ Request Response) (req : Request)
    (resp : Response) (f : Response → Operation σ ρ) (s : σ) :
    (answer halted (call h req resp >>= f)).run s = (answer halted (f (h req resp s).1)).run (h req resp s).2 := by
  rw [run_answer, run_answer, exec_bind, exec_call]

end ProviderProtocol.Operation
