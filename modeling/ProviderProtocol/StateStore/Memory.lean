import ProviderProtocol.Capability.StateStore
/-!
# State stores in memory

A store that keeps states, locks and the negotiated chunk size in memory.  Locks have ids that count up and are never
used again.  A locked state can be read and, with a warning, written, but not deleted or locked again; it is unlocked
by the id of its lock alone.

`Memory.store` serves a memory as a state store.  The memory is one cell in the state of the provider, so several
stores can stand beside each other and several clients can share one.
-/
namespace ProviderProtocol

structure Lock where
  id : String
  operation : String
  deriving DecidableEq

structure Memory where
  states : List (String × Bytes) := []
  locks : List (String × Lock) := []
  /-- The number of locks that were ever taken.  Fewer than 2 ^ 64 are meant, as many as a count in 64 bits can tell
  apart; nothing here stops at that bound. -/
  lockCount : Nat := 0
  /-- The size set by the last configuration; 0 before the first. -/
  chunkSize : Int := 0
  deriving DecidableEq

/-- A part of a state that can be read and replaced. -/
structure Cell (σ α : Type) where
  get : σ → α
  set : α → σ → σ

namespace Memory

def state? (m : Memory) (id : String) : Option Bytes := Table.find? id m.states

def lock? (m : Memory) (id : String) : Option Lock := Table.find? id m.locks

def put (m : Memory) (id : String) (bytes : Bytes) : Memory := { m with states := Table.insert id bytes m.states }

/-! ## What can go wrong -/

inductive Fault
  | locked (id : String) (lock : Lock)
  | unknown (id : String)
  | alreadyLocked (id : String) (lock : Lock)
  | mismatch (id : String) (lock : Lock) (lockId : String)
  | notLocked (id : String)
  deriving DecidableEq

def heldBy (id : String) (lock : Lock) : String :=
  "State " ++ Text.quote id ++ " is locked by " ++ lock.id ++ " for " ++ Text.quote lock.operation ++ "."

def Fault.diagnostic : Fault → Diagnostic
  | .locked id lock          => .error "State Locked" (some (heldBy id lock))
  | .unknown id              => .error "Unknown State" (some ("No state named " ++ Text.quote id ++ " exists."))
  | .alreadyLocked id lock   => .error "State Already Locked" (some (heldBy id lock))
  | .mismatch id lock lockId =>
    .error "Lock Mismatch"
      (some ("State " ++ Text.quote id ++ " is locked by " ++ lock.id ++ ", not " ++ lockId ++ "."))
  | .notLocked id            => .error "State Not Locked" (some ("State " ++ Text.quote id ++ " is not locked."))

def writtenWhileLocked (id : String) : Diagnostic :=
  .warning "Writing Locked State" (some ("State " ++ Text.quote id ++ " was written while locked."))

/-! ## Operations -/

def delete (m : Memory) (id : String) : Except Fault Memory :=
  match m.lock? id with
  | some lock => .error (.locked id lock)
  | none      =>
    match m.state? id with
    | none   => .error (.unknown id)
    | some _ => .ok { m with states := Table.erase id m.states }

/-- The id of the lock that is taken after `count` others. -/
def lockId (count : Nat) : String := "lock-" ++ toString (count + 1)

def lock (m : Memory) (id operation : String) : Except Fault (String × Memory) :=
  match m.lock? id with
  | some held => .error (.alreadyLocked id held)
  | none      =>
    let new := lockId m.lockCount
    .ok (new, { m with locks := Table.insert id ⟨new, operation⟩ m.locks, lockCount := m.lockCount + 1 })

def unlock (m : Memory) (id lockId : String) : Except Fault Memory :=
  match m.lock? id with
  | none      => .error (.notLocked id)
  | some held =>
    if held.id = lockId then .ok { m with locks := Table.erase id m.locks } else .error (.mismatch id held lockId)

/-- The memory with the state written, and whether it was locked. -/
def write (m : Memory) (id : String) (bytes : Bytes) : Bool × Memory := ((m.lock? id).isSome, m.put id bytes)

/-! ## The store -/

variable (cell : Cell σ Memory)

/-- Applies a change that may fail, reporting the fault. -/
def change (f : Memory → Except Fault Memory) : StateM σ (List Diagnostic) := do
  match f (cell.get (← get)) with
  | .ok m    => modify (cell.set m); pure []
  | .error e => pure [e.diagnostic]

def store (schema : Schema) : StateStore σ where
  schema := reportSchema (some schema)
  configure _ resp := do
    modify fun s => cell.set { cell.get s with chunkSize := resp.chunkSize } s
    pure resp
  states _ resp := do return { resp with ids := Table.names (cell.get (← get)).states }
  delete id ds := do return ds ++ (← change cell (·.delete id))
  lock req resp := do
    match (cell.get (← get)).lock req.id req.operation with
    | .ok (new, m) => modify (cell.set m); pure { resp with lockId := new }
    | .error e     => pure { resp with diagnostics := resp.diagnostics ++ [e.diagnostic] }
  unlock req ds := do return ds ++ (← change cell (·.unlock req.id req.lockId))
  readBytes id resp := do
    let m := cell.get (← get)
    return { resp with
      bytes := (m.state? id).getD []
      chunkSize := if 0 < m.chunkSize then m.chunkSize else resp.chunkSize }
  writeBytes req ds := do
    let (locked, m) := (cell.get (← get)).write req.id req.bytes
    modify (cell.set m)
    pure (if locked then ds ++ [writtenWhileLocked req.id] else ds)

end Memory

end ProviderProtocol
