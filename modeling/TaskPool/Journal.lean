import TaskPool.Script.Reply
import TaskPool.Submission

/-!
# The journal

A journal lists what happened, in order, together with the thread on which it happened. It records
every submission, every start and end of a task body, every log event and every reply. An answer to
a script shows only a part of it.
-/

namespace TaskPool

inductive ThreadId where
  /-- The thread that carries out the script. -/
  | driver
  | worker (pool : PoolId) (index : Nat)
  /-- A thread that the script started. -/
  | spawned (index : Nat)
  deriving Repr, DecidableEq, Inhabited

/-- The outstanding and queued counts of the live batches and pools, by name. -/
abbrev Snapshot := List (String × Nat)

inductive Event where
  | submitted (job : JobId) (batch : Option BatchId) (route : Route)
  /-- A task body started. -/
  | started (job : JobId) (label : String)
  /-- An operation of a task body returned. -/
  | replied (job : JobId) (label : String) (index : Nat) (reply : Reply)
  | ended (job : JobId) (label : String)
  /-- A panic left a task body. -/
  | unwound (job : JobId) (label : String) (payload : Payload)
  /-- A wait on a batch delivered the pending failure, or found none. -/
  | delivered (batch : BatchId) (failure : Option Failure)
  | logged (notice : Notice)
  /-- A top-level operation of the driver thread returned. -/
  | answered (reply : Reply) (snapshot : Snapshot)
  deriving Repr

structure Record where
  thread : ThreadId
  event : Event
  deriving Repr

end TaskPool
