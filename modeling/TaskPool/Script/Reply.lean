import TaskPool.Batch
import TaskPool.Script.Argument

/-!
# Replies

Every operation has one reply. A refusal and a caught panic are replies like any other: the script
goes on after them.
-/

namespace TaskPool

inductive Reply where
  | nothing
  /-- All tasks of the batch are finished and no failure was pending. -/
  | finished
  | flag (b : Bool)
  | number (i : Int)
  | text (s : String)
  | value (v : Value)
  | refused (reason : Refusal)
  | panicked (payload : Payload)
  /-- The failure that a wait delivered. -/
  | failed (failure : Failure)
  | defaults (poolName : String) (poolMultiplier idleMs : Nat) (hasThreads : Bool)
      (batchMultiplier : Nat)
  | poolState (name : String) (threads queued : Nat)
  /-- The pool that the whole process shares: whether it has threads, and whether asking twice
  gives the same pool. -/
  | commonPool (name : String) (hasThreads same : Bool)
  | commonPoolState (name : String)
  | batchState (outstanding threshold threads : Nat) (pool : String)
  | commonBatchState (outstanding : Nat) (pool : String)
  /-- The replies of several threads. -/
  | replies (threads : List (List Reply))
  deriving Repr, Inhabited

end TaskPool
