import TaskPool.Notice
import TaskPool.Pool

/-!
# Systems of pools, tokens and batches

A system holds every pool, token and batch that was ever made, also those that are closed; the
number of an object is its position. Each function here is one indivisible change: making or closing
an object, taking a job, or settling a finished task with the barrier of its batch. A change returns
the notices that it logs, in order.

The functions are those of `ThreadPool`, `ProducerToken`, `TaskSet` and `ConcurrentTaskSet` that
change more than one of these objects, or log something. `settle` is the end of a packaged task,
`closeBatch` is `finish_on_drop` with the release of the token that a `TaskSet` owns.
-/

namespace TaskPool

/-- All pools, tokens and batches, with the jobs that wait in them. -/
structure System (Work : Type) where
  pools : List (Pool Work) := []
  tokens : List Token := []
  batches : List Batch := []
  /-- The number of submissions so far, which is the number of the next job. -/
  submissions : Nat := 0

/-- Where a thread looks for a job: in a pool, or first in the lane of a token and then in the pool
that was asked. The pool that was asked answers for the job, wherever it was found. -/
inductive Source where
  | pool (receiver : PoolId)
  | lane (receiver : PoolId) (token : TokenId)
  deriving Repr, DecidableEq

def Source.receiver : Source → PoolId
  | .pool receiver | .lane receiver _ => receiver

namespace System

variable {Work : Type}

/-- The pool of a number. -/
def pool (s : System Work) (p : PoolId) : Pool Work := s.pools.getD p.index default

def token (s : System Work) (t : TokenId) : Token := s.tokens.getD t.index default

def batch (s : System Work) (b : BatchId) : Batch := s.batches.getD b.index default

def modifyPool (p : PoolId) (f : Pool Work → Pool Work) (s : System Work) : System Work :=
  { s with pools := s.pools.modify p.index f }

def modifyToken (t : TokenId) (f : Token → Token) (s : System Work) : System Work :=
  { s with tokens := s.tokens.modify t.index f }

def modifyBatch (b : BatchId) (f : Batch → Batch) (s : System Work) : System Work :=
  { s with batches := s.batches.modify b.index f }

@[simp] theorem pool_modifyPool_self {s : System Work} {p : PoolId} (f : Pool Work → Pool Work)
    (known : p.index < s.pools.length) : (s.modifyPool p f).pool p = f (s.pool p) := by
  simp [pool, modifyPool, List.getD_eq_getElem?_getD, known]

theorem pool_modifyPool_of_ne {s : System Work} {p q : PoolId} (f : Pool Work → Pool Work)
    (different : p ≠ q) : (s.modifyPool p f).pool q = s.pool q := by
  have apart : p.index ≠ q.index := fun same => different (PoolId.ext same)
  simp [pool, modifyPool, List.getD_eq_getElem?_getD, apart]

@[simp] theorem token_modifyToken_self {s : System Work} {t : TokenId} (f : Token → Token)
    (known : t.index < s.tokens.length) : (s.modifyToken t f).token t = f (s.token t) := by
  simp [token, modifyToken, List.getD_eq_getElem?_getD, known]

theorem token_modifyToken_of_ne {s : System Work} {t u : TokenId} (f : Token → Token)
    (different : t ≠ u) : (s.modifyToken t f).token u = s.token u := by
  have apart : t.index ≠ u.index := fun same => different (TokenId.ext same)
  simp [token, modifyToken, List.getD_eq_getElem?_getD, apart]

@[simp] theorem batch_modifyBatch_self {s : System Work} {b : BatchId} (f : Batch → Batch)
    (known : b.index < s.batches.length) : (s.modifyBatch b f).batch b = f (s.batch b) := by
  simp [batch, modifyBatch, List.getD_eq_getElem?_getD, known]

theorem batch_modifyBatch_of_ne {s : System Work} {b c : BatchId} (f : Batch → Batch)
    (different : b ≠ c) : (s.modifyBatch b f).batch c = s.batch c := by
  have apart : b.index ≠ c.index := fun same => different (BatchId.ext same)
  simp [batch, modifyBatch, List.getD_eq_getElem?_getD, apart]

def poolOf (s : System Work) (b : BatchId) : Pool Work := s.pool (s.batch b).pool

/-- The number of outstanding tasks that a batch takes before it is saturated. -/
def threshold (s : System Work) (b : BatchId) : Nat :=
  loadLimit (s.batch b).multiplier (s.poolOf b).workers

/-- More tasks of the batch are outstanding than its threshold allows. -/
def isSaturated (s : System Work) (b : BatchId) : Bool :=
  s.threshold b < (s.batch b).barrier.outstanding

/-! ## Making objects -/

/-- Starts a pool, with as many workers as threads can be started. -/
def startPool (reasons : Nat → Option String) (config : PoolConfig) (s : System Work) :
    PoolId × System Work × List Notice :=
  let p : PoolId := ⟨s.pools.length⟩
  let workers := (config.started reasons).length
  let failed := (List.range config.workers).filterMap fun index =>
    (reasons index).map (.workerFailed p config.name index)
  (p, { s with pools := s.pools ++ [Pool.start workers config] },
    failed ++ [.poolStarted p config.name workers config.workers])

def issueToken (p : PoolId) (s : System Work) : TokenId × System Work × List Notice :=
  let t : TokenId := ⟨s.tokens.length⟩
  (t, modifyPool p (·.register t) { s with tokens := s.tokens ++ [{ pool := p }] },
    [.tokenRegistered t (s.pool p).name])

/-- Makes a batch on a pool. A batch with a single producer is issued a token of its own. -/
def makeBatch (p : PoolId) (single : Bool) (multiplier : Nat) (s : System Work) :
    BatchId × System Work × List Notice :=
  let b : BatchId := ⟨s.batches.length⟩
  let created : Notice :=
    .batchCreated b (s.pool p).name (loadLimit multiplier (s.pool p).workers)
  if single then
    let (t, s, registered) := s.issueToken p
    (b, { s with batches := s.batches ++ [{ pool := p, kind := .single t, multiplier }] },
      created :: registered)
  else
    (b, { s with batches := s.batches ++ [{ pool := p, kind := .multi, multiplier }] }, [created])

/-! ## Taking and settling jobs -/

def take (source : Source) (s : System Work) : Option (Job Work × System Work) :=
  let fromPool (p : PoolId) : Option (Job Work × System Work) :=
    (s.pool p).pop.map fun (job, rest) => (job, s.modifyPool p fun _ => rest)
  match source with
  | .pool receiver => fromPool receiver
  | .lane receiver t =>
    let issuer := (s.token t).pool
    match (s.pool issuer).popLane t with
    | some (job, rest) => some (job, s.modifyPool issuer fun _ => rest)
    | none => fromPool receiver

/-- Where a thread that waits for a batch looks for jobs. -/
def sourceOf (s : System Work) (b : BatchId) : Source :=
  let batch := s.batch b
  match batch.kind with
  | .single t => .lane batch.pool t
  | .multi => .pool batch.pool

/-- Reports a finished task to its batch. A panic is logged and captured before the task retires;
it is discarded if an earlier failure is pending. -/
def settle (b : BatchId) (job : JobId) (panicked : Option Payload) (s : System Work) :
    System Work × List Notice :=
  match panicked with
  | none => (s.modifyBatch b (·.mapBarrier .retire), [])
  | some payload =>
    let name := (s.poolOf b).name
    let failure := Failure.ofPayload payload
    let (kept, barrier) := (s.batch b).barrier.keepFirst failure
    (s.modifyBatch b (·.mapBarrier fun _ => barrier.retire),
      .taskPanicked b job name :: if kept then [] else [.failureDiscarded b name failure])

def deliver (b : BatchId) (s : System Work) : Option Failure × System Work :=
  let (failure, barrier) := (s.batch b).barrier.deliver
  (failure, s.modifyBatch b (·.mapBarrier fun _ => barrier))

/-! ## Closing objects -/

/-- Releases a token: its lane is dissolved into the shared queue of the pool that issued it. -/
def releaseToken (t : TokenId) (s : System Work) : System Work × List Notice :=
  let issuer := (s.token t).pool
  let moved := ((s.pool issuer).waitingIn t).length
  ((s.modifyPool issuer (·.release t)).modifyToken t ({ · with stage := .closed }),
    [.tokenReleased t (s.pool issuer).name moved])

def beginClosingBatch (b : BatchId) (s : System Work) : System Work :=
  s.modifyBatch b ({ · with stage := .closing })

/-- Ends the closing of a batch whose tasks are all finished. A failure that nobody asked for is
logged, and a token that the batch owns is released last. -/
def closeBatch (b : BatchId) (s : System Work) : System Work × List Notice :=
  let name := (s.poolOf b).name
  let kind := (s.batch b).kind
  let (failure, s) := s.deliver b
  let report : Notice := match failure with
    | none => .batchClosed b name kind
    | some failure => .failureUnobserved b name kind failure
  let (s, released) := match kind with
    | .single t => s.releaseToken t
    | .multi => (s, [])
  (s.modifyBatch b ({ · with stage := .closed }), report :: released)

/-- Starts to close a pool; its workers stop when they look for the next job. -/
def beginClosingPool (p : PoolId) (s : System Work) : System Work × List Notice :=
  (s.modifyPool p ({ · with stage := .closing }), [.poolClosing p (s.pool p).name])

/-- Ends the closing of a pool, after `leftover` jobs were run by the closing thread. -/
def closePool (p : PoolId) (leftover : Nat) (s : System Work) : System Work × List Notice :=
  (s.modifyPool p ({ · with stage := .closed }), [.poolClosed p (s.pool p).name leftover])

/-- Whether a token or a batch of the pool is not closed yet. -/
def dependsOnPool (p : PoolId) (s : System Work) : Bool :=
  s.tokens.any (fun t => t.pool == p && t.stage != .closed) ||
    s.batches.any (fun b => b.pool == p && b.stage != .closed)

end System

end TaskPool
