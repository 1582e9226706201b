import Mathlib.Data.List.Induction
import Mathlib.Data.List.Nodup
import ProviderProtocol.Text.Utf8
/-!
# Histories of a state store

What its clients know of a state store is which of their requests it accepted: a history of events, the oldest first.
The history alone tells who holds the lock on a state (`holder?`), which bytes the state has (`contents?`) and which
lock ids were given out (`lockIds`).

Whether an event can come next depends on nothing but the history (`Possible`).  A history in which every event was
possible when it came is orderly, and in an orderly history locks exclude each other: no id is given out twice, and the
id of a lock that is held was given out for this state alone and was never released.
-/
namespace ProviderProtocol

inductive StoreEvent
  | configured (chunkSize : Int)
  | stored (id : String) (bytes : Bytes)
  | deleted (id : String)
  | locked (id lockId : String)
  | unlocked (id lockId : String)
  deriving DecidableEq

namespace StoreEvent

/-- The state that the event is about. -/
def stateId? : StoreEvent → Option String
  | .configured _                                              => none
  | .stored id _ | .deleted id | .locked id _ | .unlocked id _ => some id

/-- The id of the lock on a state after the event, given that before it. -/
def holder (id : String) (held : Option String) : StoreEvent → Option String
  | .locked key lockId => if key = id then some lockId else held
  | .unlocked key _    => if key = id then none else held
  | _                  => held

/-- The bytes of a state after the event, given those before it. -/
def contents (id : String) (bytes : Option Bytes) : StoreEvent → Option Bytes
  | .stored key new => if key = id then some new else bytes
  | .deleted key    => if key = id then none else bytes
  | _               => bytes

/-- The state that is locked, and the id of the lock. -/
def taking? : StoreEvent → Option (String × String)
  | .locked id lockId => some (id, lockId)
  | _                 => none

/-- Who holds the lock after an event has either just taken it or held it before, and then the event is no release. -/
theorem holder_eq_some {e : StoreEvent} {id lockId : String} {held : Option String}
    (h : e.holder id held = some lockId) :
    e = .locked id lockId ∨ held = some lockId ∧ ∀ old, e ≠ .unlocked id old := by
  cases e with
  | locked key new =>
    rw [holder] at h
    split at h
    · rename_i hkey
      cases h
      exact .inl (hkey ▸ rfl)
    · exact .inr ⟨h, fun old he => by cases he⟩
  | unlocked key old =>
    rw [holder] at h
    split at h
    · cases h
    · rename_i hkey
      exact .inr ⟨h, fun old' he => hkey (by cases he; rfl)⟩
  | configured size  => exact .inr ⟨h, fun old he => by cases he⟩
  | stored key bytes => exact .inr ⟨h, fun old he => by cases he⟩
  | deleted key      => exact .inr ⟨h, fun old he => by cases he⟩

theorem contents_of_stateId_ne {e : StoreEvent} {id : String} (h : e.stateId? ≠ some id) (bytes : Option Bytes) :
    e.contents id bytes = bytes := by
  cases e with
  | stored key new      => exact if_neg fun hkey => h (congrArg some hkey)
  | deleted key         => exact if_neg fun hkey => h (congrArg some hkey)
  | configured size     => rfl
  | locked key lockId   => rfl
  | unlocked key lockId => rfl

end StoreEvent

abbrev History := List StoreEvent

namespace History

/-- The id of the lock that is held on the state. -/
def holder? (history : History) (id : String) : Option String := history.foldl (StoreEvent.holder id) none

/-- The bytes that were stored last for the state, unless they were deleted since. -/
def contents? (history : History) (id : String) : Option Bytes := history.foldl (StoreEvent.contents id) none

/-- The locks that were taken, each with its state. -/
def takings (history : History) : List (String × String) := history.filterMap StoreEvent.taking?

def lockIds (history : History) : List String := history.takings.map Prod.snd

variable {history : History} {e : StoreEvent} {id other lockId : String}

@[simp] theorem holder?_concat : holder? (history ++ [e]) id = e.holder id (history.holder? id) := by
  simp [holder?]

@[simp] theorem contents?_concat : contents? (history ++ [e]) id = e.contents id (history.contents? id) := by
  simp [contents?]

theorem takings_concat : takings (history ++ [e]) = history.takings ++ e.taking?.toList := by
  cases h : e.taking? with
  | none   => simp [takings, h]
  | some t => simp [takings, h]

theorem lockIds_concat : lockIds (history ++ [e]) = history.lockIds ++ (e.taking?.map Prod.snd).toList := by
  rw [lockIds, takings_concat, List.map_append]
  cases e.taking? with
  | none   => rfl
  | some t => rfl

/-- A lock that is held was taken. -/
theorem mem_takings_of_holder : history.holder? id = some lockId → (id, lockId) ∈ history.takings := by
  induction history using List.reverseRecOn with
  | nil => intro h; cases h
  | append_singleton history e ih =>
    intro h
    rw [holder?_concat] at h
    rw [takings_concat, List.mem_append]
    rcases StoreEvent.holder_eq_some h with rfl | ⟨hheld, -⟩
    · exact .inr List.mem_cons_self
    · exact .inl (ih hheld)

theorem mem_lockIds_of_mem_takings (h : (id, lockId) ∈ history.takings) : lockId ∈ history.lockIds :=
  List.mem_map.2 ⟨_, h, rfl⟩

/-! ## Orderly histories -/

/-- Can the event come next? -/
def Possible (history : History) : StoreEvent → Prop
  | .configured _ | .stored _ _ => True
  | .deleted id                 => history.holder? id = none ∧ history.contents? id ≠ none
  | .locked id lockId           => history.holder? id = none ∧ lockId ∉ history.lockIds
  | .unlocked id lockId         => history.holder? id = some lockId

/-- Every event was possible when it came. -/
inductive Orderly : History → Prop
  | start : Orderly []
  | next {history : History} {e : StoreEvent} : Orderly history → history.Possible e → Orderly (history ++ [e])

namespace Orderly

/-- **No lock id is given out twice.** -/
theorem lockIds_nodup (h : history.Orderly) : history.lockIds.Nodup := by
  induction h with
  | start => exact List.nodup_nil
  | @next history e _ possible ih =>
    rw [lockIds_concat]
    cases e with
    | locked id lockId =>
      refine List.nodup_append.2 ⟨ih, List.nodup_singleton lockId, fun old hold new hnew heq => ?_⟩
      obtain rfl := List.mem_singleton.1 hnew
      exact possible.2 (heq ▸ hold)
    | configured size    => simpa [StoreEvent.taking?] using ih
    | stored id bytes    => simpa [StoreEvent.taking?] using ih
    | deleted id         => simpa [StoreEvent.taking?] using ih
    | unlocked id lockId => simpa [StoreEvent.taking?] using ih

/-- The id of a lock that is held was given out for this state alone. -/
theorem taken_for (h : history.Orderly) (hheld : history.holder? id = some lockId)
    (htaken : (other, lockId) ∈ history.takings) : id = other :=
  congrArg Prod.fst (List.inj_on_of_nodup_map h.lockIds_nodup (mem_takings_of_holder hheld) htaken rfl)

theorem mem_lockIds_of_unlocked (h : history.Orderly) :
    StoreEvent.unlocked other lockId ∈ history → lockId ∈ history.lockIds := by
  induction h with
  | start => intro hm; cases hm
  | @next history e _ possible ih =>
    intro hm
    rw [lockIds_concat, List.mem_append]
    rcases List.mem_append.1 hm with hm | hm
    · exact .inl (ih hm)
    · obtain rfl := List.mem_singleton.1 hm
      exact .inl (mem_lockIds_of_mem_takings (mem_takings_of_holder possible))

/-- **The id of a lock that is held was never released**, neither for this state nor for another. -/
theorem holder_ne_released (h : history.Orderly) :
    StoreEvent.unlocked other lockId ∈ history → history.holder? id ≠ some lockId := by
  induction h with
  | start => intro hm; cases hm
  | @next history e orderly possible ih =>
    intro hm hheld
    rw [holder?_concat] at hheld
    rcases StoreEvent.holder_eq_some hheld with rfl | ⟨hbefore, hkept⟩
    · -- taken by the last event: its id is new, but the released one was given out before
      rcases List.mem_append.1 hm with hm | hm
      · exact possible.2 (orderly.mem_lockIds_of_unlocked hm)
      · cases List.mem_singleton.1 hm
    · rcases List.mem_append.1 hm with hm | hm
      · exact ih hm hbefore
      · -- released by the last event: then it was held on that state, which is this one
        obtain rfl := List.mem_singleton.1 hm
        obtain rfl := orderly.taken_for hbefore (mem_takings_of_holder possible)
        exact hkept lockId rfl

end Orderly

end History

end ProviderProtocol
