import ProviderProtocol.Proofs.StateStore.History
import ProviderProtocol.Proofs.Table
import ProviderProtocol.StateStore.Memory
/-!
# Memories and their histories

Every event changes a memory in one way (`Step`).  A memory matches an orderly history if it holds the states and locks
that the history tells of and has counted the locks (`Matches`).  What can be done next in such a memory is what the
history makes possible (`Matches.possible`), so a step leads to an orderly history again, and to a match
(`Matches.step`); the empty memory matches the empty history.
-/
namespace ProviderProtocol.Memory

theorem lockId_injective {m n : Nat} (h : lockId m = lockId n) : m = n := by
  have htext : (m + 1).repr = (n + 1).repr := (String.append_right_inj "lock-").1 h
  have hnumber : m + 1 = n + 1 :=
    calc m + 1
      _ = Nat.ofDigitChars 10 (m + 1).repr.toList 0 := by rw [Nat.toList_repr, Nat.ofDigitChars_ten_toDigits]
      _ = Nat.ofDigitChars 10 (n + 1).repr.toList 0 := by rw [htext]
      _ = n + 1 := by rw [Nat.toList_repr, Nat.ofDigitChars_ten_toDigits]
  exact Nat.succ.inj hnumber

/-! ## What is changed by what succeeds -/

variable {m m' : Memory} {id new held operation : String}

theorem delete_eq_ok : m.delete id = .ok m' ↔
    m.lock? id = none ∧ m.state? id ≠ none ∧ m' = { m with states := Table.erase id m.states } := by
  unfold delete
  cases m.lock? id with
  | some lock =>
    constructor
    · intro h; cases h
    · intro h; cases h.1
  | none =>
    cases m.state? id with
    | none =>
      constructor
      · intro h; cases h
      · intro h; exact absurd rfl h.2.1
    | some bytes =>
      constructor
      · intro h
        cases h
        exact ⟨rfl, Option.some_ne_none _, rfl⟩
      · rintro ⟨-, -, rfl⟩
        rfl

theorem lock_eq_ok : m.lock id operation = .ok (new, m') ↔ m.lock? id = none ∧ new = lockId m.lockCount ∧
    m' = { m with locks := Table.insert id ⟨new, operation⟩ m.locks, lockCount := m.lockCount + 1 } := by
  unfold lock
  cases m.lock? id with
  | some lock =>
    constructor
    · intro h; cases h
    · intro h; cases h.1
  | none =>
    constructor
    · intro h
      cases h
      exact ⟨rfl, rfl, rfl⟩
    · rintro ⟨-, rfl, rfl⟩
      rfl

theorem unlock_eq_ok : m.unlock id held = .ok m' ↔
    (m.lock? id).map Lock.id = some held ∧ m' = { m with locks := Table.erase id m.locks } := by
  unfold unlock
  cases m.lock? id with
  | none =>
    constructor
    · intro h; cases h
    · intro h; cases h.1
  | some lock =>
    dsimp only
    by_cases hid : lock.id = held
    · rw [if_pos hid]
      constructor
      · intro h
        cases h
        exact ⟨congrArg some hid, rfl⟩
      · rintro ⟨-, rfl⟩
        rfl
    · rw [if_neg hid]
      constructor
      · intro h; cases h
      · intro h; exact absurd (Option.some.inj h.1) hid

/-! ## Steps -/

/-- The change that an event stands for, and what has to hold before it. -/
inductive Step (m : Memory) : StoreEvent → Memory → Prop
  | configured (size : Int) : Step m (.configured size) { m with chunkSize := size }
  | stored (id : String) (bytes : Bytes) : Step m (.stored id bytes) (m.put id bytes)
  | deleted (id : String) : m.lock? id = none → m.state? id ≠ none →
    Step m (.deleted id) { m with states := Table.erase id m.states }
  | locked (id operation : String) : m.lock? id = none →
    Step m (.locked id (lockId m.lockCount))
      { m with locks := Table.insert id ⟨lockId m.lockCount, operation⟩ m.locks, lockCount := m.lockCount + 1 }
  | unlocked (id held : String) : (m.lock? id).map Lock.id = some held →
    Step m (.unlocked id held) { m with locks := Table.erase id m.locks }

/-- States and locks are in order, each name once. -/
structure Ordered (m : Memory) : Prop where
  states : Table.Ascending m.states
  locks : Table.Ascending m.locks

namespace Step

variable {e : StoreEvent}

theorem of_delete (h : m.delete id = .ok m') : m.Step (.deleted id) m' := by
  obtain ⟨hfree, hthere, rfl⟩ := delete_eq_ok.1 h
  exact .deleted id hfree hthere

theorem of_lock (h : m.lock id operation = .ok (new, m')) : m.Step (.locked id new) m' := by
  obtain ⟨hfree, rfl, rfl⟩ := lock_eq_ok.1 h
  exact .locked id operation hfree

theorem of_unlock (h : m.unlock id held = .ok m') : m.Step (.unlocked id held) m' := by
  obtain ⟨hheld, rfl⟩ := unlock_eq_ok.1 h
  exact .unlocked id held hheld

theorem ordered (step : m.Step e m') (h : m.Ordered) : m'.Ordered := by
  cases step with
  | configured size       => exact ⟨h.states, h.locks⟩
  | stored id bytes       => exact ⟨Table.insert_ascending h.states, h.locks⟩
  | deleted id _ _        => exact ⟨Table.erase_ascending h.states id, h.locks⟩
  | locked id operation _ => exact ⟨h.states, Table.insert_ascending h.locks⟩
  | unlocked id held _    => exact ⟨h.states, Table.erase_ascending h.locks id⟩

theorem state? (step : m.Step e m') (h : m.Ordered) (id : String) : m'.state? id = e.contents id (m.state? id) := by
  cases step with
  | configured size        => rfl
  | stored key bytes       => exact Table.find?_insert key id bytes m.states
  | deleted key _ _        => exact Table.find?_erase h.states key id
  | locked key operation _ => rfl
  | unlocked key held _    => rfl

theorem lock? (step : m.Step e m') (h : m.Ordered) (id : String) :
    m'.lock? id = m.lock? id ∨ e.stateId? = some id := by
  cases step with
  | configured size  => exact .inl rfl
  | stored key bytes => exact .inl rfl
  | deleted key _ _  => exact .inl rfl
  | locked key operation _ =>
    by_cases hkey : key = id
    · exact .inr (congrArg some hkey)
    · exact .inl ((Table.find?_insert key id _ m.locks).trans (if_neg hkey))
  | unlocked key held _ =>
    by_cases hkey : key = id
    · exact .inr (congrArg some hkey)
    · exact .inl ((Table.find?_erase h.locks key id).trans (if_neg hkey))

theorem holder (step : m.Step e m') (h : m.Ordered) (id : String) :
    (m'.lock? id).map Lock.id = e.holder id ((m.lock? id).map Lock.id) := by
  cases step with
  | configured size  => rfl
  | stored key bytes => rfl
  | deleted key _ _  => rfl
  | locked key operation _ =>
    rw [Memory.lock?, Table.find?_insert, StoreEvent.holder]
    split
    · rfl
    · rfl
  | unlocked key held _ =>
    rw [Memory.lock?, Table.find?_erase h.locks, StoreEvent.holder]
    split
    · rfl
    · rfl

theorem chunkSize (step : m.Step e m') : m'.chunkSize = m.chunkSize ∨ e.stateId? = none := by
  cases step with
  | configured size        => exact .inr rfl
  | stored key bytes       => exact .inl rfl
  | deleted key _ _        => exact .inl rfl
  | locked key operation _ => exact .inl rfl
  | unlocked key held _    => exact .inl rfl

/-- What an event is about is the only state that its step touches. -/
theorem frame (step : m.Step e m') (h : m.Ordered) {id : String} (hid : e.stateId? ≠ some id) :
    m'.state? id = m.state? id ∧ m'.lock? id = m.lock? id :=
  ⟨(step.state? h id).trans (StoreEvent.contents_of_stateId_ne hid _), (step.lock? h id).resolve_right hid⟩

end Step

/-! ## Matching a history -/

/-- The ids of the locks that were ever taken. -/
def lockIds (m : Memory) : List String := (List.range m.lockCount).map lockId

theorem lockId_not_mem (m : Memory) : lockId m.lockCount ∉ m.lockIds := by
  intro hm
  obtain ⟨n, hn, heq⟩ := List.mem_map.1 hm
  exact absurd (lockId_injective heq) (Nat.ne_of_lt (List.mem_range.1 hn))

theorem Step.lockIds {e : StoreEvent} (step : m.Step e m') :
    m'.lockIds = m.lockIds ++ (e.taking?.map Prod.snd).toList := by
  cases step with
  | configured size        => exact (List.append_nil _).symm
  | stored key bytes       => exact (List.append_nil _).symm
  | deleted key _ _        => exact (List.append_nil _).symm
  | locked key operation _ => simp [Memory.lockIds, StoreEvent.taking?, List.range_succ]
  | unlocked key held _    => exact (List.append_nil _).symm

/-- The memory is what an orderly history makes of it. -/
structure Matches (m : Memory) (history : History) : Prop where
  orderly : history.Orderly
  ordered : m.Ordered
  state? : ∀ id, m.state? id = history.contents? id
  holder : ∀ id, (m.lock? id).map Lock.id = history.holder? id
  lockIds : m.lockIds = history.lockIds

namespace Matches

variable {history : History} {e : StoreEvent}

theorem empty : ({} : Memory).Matches [] where
  orderly := .start
  ordered := ⟨List.Pairwise.nil, List.Pairwise.nil⟩
  state? _ := rfl
  holder _ := rfl
  lockIds := rfl

theorem lock?_eq_none (h : m.Matches history) : m.lock? id = none ↔ history.holder? id = none := by
  rw [← h.holder, Option.map_eq_none_iff]

theorem possible (h : m.Matches history) (step : m.Step e m') : history.Possible e := by
  cases step with
  | configured size            => trivial
  | stored key bytes           => trivial
  | deleted key hfree hthere   => exact ⟨h.lock?_eq_none.1 hfree, h.state? key ▸ hthere⟩
  | locked key operation hfree => exact ⟨h.lock?_eq_none.1 hfree, h.lockIds ▸ m.lockId_not_mem⟩
  | unlocked key held hheld    => exact (h.holder key).symm.trans hheld

/-- **An event that changes the memory was possible, and the memory matches the history that it adds to.** -/
theorem step (h : m.Matches history) (step : m.Step e m') : m'.Matches (history ++ [e]) where
  orderly := .next h.orderly (h.possible step)
  ordered := step.ordered h.ordered
  state? id := by rw [step.state? h.ordered, History.contents?_concat, h.state?]
  holder id := by rw [step.holder h.ordered, History.holder?_concat, h.holder]
  lockIds := by rw [step.lockIds, History.lockIds_concat, h.lockIds]

/-! ### What succeeds -/

theorem lock_ok_iff (h : m.Matches history) : (∃ r, m.lock id operation = .ok r) ↔ history.holder? id = none := by
  constructor
  · rintro ⟨⟨new, m'⟩, hok⟩
    exact h.lock?_eq_none.1 (lock_eq_ok.1 hok).1
  · intro hfree
    exact ⟨_, lock_eq_ok.2 ⟨h.lock?_eq_none.2 hfree, rfl, rfl⟩⟩

theorem unlock_ok_iff (h : m.Matches history) :
    (∃ m', m.unlock id held = .ok m') ↔ history.holder? id = some held := by
  constructor
  · rintro ⟨m', hok⟩
    exact (h.holder id).symm.trans (unlock_eq_ok.1 hok).1
  · intro hheld
    exact ⟨_, unlock_eq_ok.2 ⟨(h.holder id).trans hheld, rfl⟩⟩

theorem delete_ok_iff (h : m.Matches history) :
    (∃ m', m.delete id = .ok m') ↔ history.holder? id = none ∧ history.contents? id ≠ none := by
  constructor
  · rintro ⟨m', hok⟩
    exact ⟨h.lock?_eq_none.1 (delete_eq_ok.1 hok).1, h.state? id ▸ (delete_eq_ok.1 hok).2.1⟩
  · rintro ⟨hfree, hthere⟩
    exact ⟨_, delete_eq_ok.2 ⟨h.lock?_eq_none.2 hfree, (h.state? id).symm ▸ hthere, rfl⟩⟩

theorem mem_names_iff (h : m.Matches history) :
    id ∈ Table.names m.states ↔ ∃ bytes, history.contents? id = some bytes := by
  rw [← h.state?, ← Option.ne_none_iff_exists', Memory.state?, Ne, Table.find?_eq_none_iff, not_not]

end Matches

end ProviderProtocol.Memory
