import TaskPool.Barrier
import TaskPool.Job

/-!
# Tokens and batches

A token is the right to submit through one lane of the pool that issued it. A batch is a group of
tasks on one pool that can be waited for together. There are two kinds: a batch with a single
producer owns a token and submits through its lane, a batch with many producers submits through the
shared queue.

`Token` is `ProducerToken`. `Batch` is what `TaskSet` and `ConcurrentTaskSet` share as
`TaskSetBase`, and `BatchKind` tells the two apart.
-/

namespace TaskPool

/-- A producer token. The lane it stands for is kept by the pool that issued it. -/
structure Token where
  pool : PoolId
  stage : Stage := .live
  deriving Repr

/-- A number that was never given names a token that was released long ago. -/
instance : Inhabited Token := ⟨{ pool := ⟨0⟩, stage := .closed }⟩

/-- Who may submit to a batch, and through which inlet its tasks go. -/
inductive BatchKind where
  /-- One producer, through the lane of a token that the batch owns. -/
  | single (token : TokenId)
  /-- Any number of producers, through the shared queue. -/
  | multi
  deriving Repr, DecidableEq

/-- The name of a kind in log events. -/
def BatchKind.label : BatchKind → String
  | .single _ => "TaskSet"
  | .multi => "ConcurrentTaskSet"

structure Batch where
  pool : PoolId
  kind : BatchKind
  /-- How many outstanding tasks per worker of the pool the batch takes before it is saturated. -/
  multiplier : Nat
  barrier : Barrier := {}
  stage : Stage := .live
  deriving Repr

/-- A number that was never given names a batch that was closed long ago. -/
instance : Inhabited Batch := ⟨{ pool := ⟨0⟩, kind := .multi, multiplier := 0, stage := .closed }⟩

namespace Batch

/-- The multiplier of a batch that is made without one. -/
def standardMultiplier : Nat := 4

def mapBarrier (f : Barrier → Barrier) (b : Batch) : Batch := { b with barrier := f b.barrier }

end Batch

end TaskPool
