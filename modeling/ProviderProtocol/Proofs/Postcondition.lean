import ProviderProtocol.Error
/-!
# Postconditions of computations that can fail

A postcondition speaks of the result of a computation; a failure has none.  What is proved of a traversal in any monad
that can fail needs of the monad only a notion of postcondition that `pure`, `>>=` and failures respect
(`Postcondition`).  There is one for plain failures (`Yields`), and one for failures beside a state with an invariant.
-/
namespace ProviderProtocol

/-! ## Results of steps -/

theorem bind_eq_ok {x : Except ε α} {f : α → Except ε β} {b : β} :
    x >>= f = .ok b ↔ ∃ a, x = .ok a ∧ f a = .ok b := by
  cases x with
  | error e =>
    constructor
    · intro h
      cases h
    · rintro ⟨a, h, _⟩
      cases h
  | ok a    =>
    constructor
    · intro h
      exact ⟨a, rfl, h⟩
    · rintro ⟨a', ha, h⟩
      cases ha
      exact h

theorem map_eq_ok {x : Except ε α} {f : α → β} {b : β} : x.map f = .ok b ↔ ∃ a, x = .ok a ∧ f a = b := by
  cases x with
  | error e => simp [Except.map]
  | ok a    => simp [Except.map]

theorem mapError_eq_ok {x : Except ε α} {f : ε → ε'} {a : α} : x.mapError f = .ok a ↔ x = .ok a := by
  cases x with
  | error e => exact ⟨nofun, nofun⟩
  | ok b    =>
    show Except.ok b = .ok a ↔ _
    rw [Except.ok.injEq, Except.ok.injEq]

theorem toOption_eq_some {x : Except ε α} {a : α} : x.toOption = some a ↔ x = .ok a := by
  cases x with
  | error e => exact ⟨nofun, nofun⟩
  | ok b    =>
    show some b = some a ↔ _
    rw [Option.some.injEq, Except.ok.injEq]

/-! ## Postconditions -/

/-- The result, if there is one, is such. -/
def Yields (x : Except ProviderError α) (P : α → Prop) : Prop := ∀ a, x = .ok a → P a

theorem Yields.ok {a : α} {P : α → Prop} (h : P a) : Yields (.ok a) P := by
  intro b hb
  cases hb
  exact h

theorem Yields.error {e : ProviderError} {P : α → Prop} : Yields (.error e : Except ProviderError α) P := by
  intro b hb
  cases hb

theorem Yields.bind {x : Except ProviderError α} {f : α → Except ProviderError β} {Q : α → Prop} {P : β → Prop}
    (h : Yields x Q) (hf : ∀ a, Q a → Yields (f a) P) : Yields (x >>= f) P := by
  cases x with
  | error e => exact .error
  | ok a    => exact hf a (h a rfl)

/-- A postcondition for each computation in the monad, with the rules that it takes to pass through a program. -/
structure Postcondition (m : Type → Type) [Monad m] [MonadExceptOf ProviderError m] where
  holds : {α : Type} → m α → (α → Prop) → Prop
  pure : ∀ {α : Type} {a : α} {P : α → Prop}, P a → holds (Pure.pure a) P
  bind : ∀ {α β : Type} {x : m α} {f : α → m β} {Q : α → Prop} {P : β → Prop},
    holds x Q → (∀ a, Q a → holds (f a) P) → holds (x >>= f) P
  throw : ∀ {α : Type} {P : α → Prop} (e : ProviderError), holds (MonadExcept.throw e : m α) P

namespace Postcondition

def ofExcept : Postcondition (Except ProviderError) where
  holds := Yields
  pure := .ok
  bind := .bind
  throw _ := .error

/-- From a state with the invariant a computation, failed or not, comes to one with the invariant. -/
def ofState (invariant : τ → Prop) : Postcondition (ExceptT ProviderError (StateM τ)) where
  holds x P := ∀ s, invariant s → invariant (x.run.run s).2 ∧ Yields (x.run.run s).1 P
  pure h s hs := ⟨hs, .ok h⟩
  bind {_ _ x f _ P} hx hf s hs := by
    obtain ⟨hs', hresult⟩ := hx s hs
    rw [ExceptT.run_bind, StateT.run_bind]
    cases hrun : x.run.run s with
    | mk r s' =>
      rw [hrun] at hs' hresult
      cases r with
      | error e => exact ⟨hs', .error⟩
      | ok a    => exact hf a (hresult a rfl) s' hs'
  throw e s hs := ⟨hs, .error⟩

end Postcondition

end ProviderProtocol
