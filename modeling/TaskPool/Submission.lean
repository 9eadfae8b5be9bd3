import TaskPool.System

/-!
# Submissions

Work is submitted at a pool, through a token, or to a batch. A submission that is not forced first
passes the load checks of what it is submitted to: a saturated batch and a saturated pool do not
queue the work but have the submitting thread run it before the call returns. The result of a
submission says which of these happened.

A batch wraps the work for its barrier after its own check and before the check of the pool. Work
that the batch turns away is therefore raw, and work that the pool turns away is already wrapped.

The entry points are `schedule`, `schedule_forced`, `schedule_with_token` and
`schedule_with_token_forced` of `ThreadPool`, and `schedule`, `schedule_skip_recheck` and
`schedule_forced` of the task sets.
-/

namespace TaskPool

variable {Work : Type}

/-- Which load checks a submission to a batch passes. -/
inductive Admission where
  /-- The check of the batch and then the check of the pool. -/
  | checked
  /-- The check of the batch alone. -/
  | ownCheck
  /-- No check. -/
  | forced
  deriving Repr, DecidableEq

inductive Entry where
  | pool (receiver : PoolId) (forced : Bool)
  /-- Through a token, which may come from another pool than the one that is asked. -/
  | token (receiver : PoolId) (token : TokenId) (forced : Bool)
  | batch (batch : BatchId) (admission : Admission)
  deriving Repr, DecidableEq

/-- What became of submitted work. -/
inductive Route where
  | queued (pool : PoolId) (inlet : Inlet)
  /-- The pool was saturated: the submitting thread runs the job. -/
  | inlineByPool (pool : PoolId)
  /-- The batch was saturated: the submitting thread runs the job. -/
  | inlineByBatch (batch : BatchId)
  deriving Repr, DecidableEq

/-- Whether the submitting thread has to run the job before the call returns. -/
def Route.runsNow : Route → Bool
  | .queued .. => false
  | .inlineByPool _ | .inlineByBatch _ => true

structure Submission (Work : Type) where
  system : System Work
  /-- The work as a job, wrapped for a batch or raw. -/
  job : Job Work
  route : Route
  notices : List Notice := []

namespace System

/-- Where work enters that is neither run by the batch nor by the pool. -/
def inletOf (s : System Work) : Entry → PoolId × Inlet
  | .pool receiver _ => (receiver, .shared)
  | .token _ t _ => ((s.token t).pool, .lane t)
  | .batch b _ =>
    match (s.batch b).kind with
    | .single t => ((s.token t).pool, .lane t)
    | .multi => ((s.batch b).pool, .shared)

def enqueue (p : PoolId) (inlet : Inlet) (job : Job Work) (s : System Work) : Submission Work where
  system := s.modifyPool p (·.push inlet job)
  job := job
  route := .queued p inlet

def turnAway (p : PoolId) (job : Job Work) (s : System Work) : Submission Work where
  system := s
  job := job
  route := .inlineByPool p
  notices := [.poolSaturated p (s.pool p).name]

def offer (p : PoolId) (job : Job Work) (s : System Work) : Submission Work :=
  if (s.pool p).isSaturated then s.turnAway p job else s.enqueue p .shared job

/-- Queues a job in the lane of a token, in the pool that issued it. It is worth a warning when
another pool was asked. -/
def enqueueVia (receiver : PoolId) (t : TokenId) (job : Job Work) (s : System Work) :
    Submission Work :=
  let issuer := (s.token t).pool
  { s.enqueue issuer (.lane t) job with
    notices :=
      if receiver = issuer then []
      else [.foreignToken t (s.pool receiver).name (s.pool issuer).name] }

def offerVia (receiver : PoolId) (t : TokenId) (job : Job Work) (s : System Work) :
    Submission Work :=
  let issuer := (s.token t).pool
  if (s.pool issuer).isSaturated then s.turnAway issuer job else s.enqueueVia receiver t job

/-- Wraps work for a batch: one more task is outstanding from now on. -/
def wrap (b : BatchId) (id : JobId) (work : Work) (s : System Work) : Job Work × System Work :=
  (⟨id, some b, work⟩, s.modifyBatch b (·.mapBarrier .enlist))

def submitToBatch (b : BatchId) (admission : Admission) (id : JobId) (work : Work)
    (s : System Work) : Submission Work :=
  if admission ≠ .forced ∧ s.isSaturated b then
    { system := s, job := ⟨id, none, work⟩, route := .inlineByBatch b,
      notices := [.batchSaturated b (s.poolOf b).name (s.threshold b)] }
  else
    let batch := s.batch b
    let (job, s) := s.wrap b id work
    match batch.kind, admission with
    | .single t, .checked => s.offerVia batch.pool t job
    | .single t, _ => s.enqueueVia batch.pool t job
    | .multi, .checked => s.offer batch.pool job
    | .multi, _ => s.enqueue batch.pool .shared job

def submit (entry : Entry) (work : Work) (s : System Work) : Submission Work :=
  let id : JobId := ⟨s.submissions⟩
  let s := { s with submissions := s.submissions + 1 }
  match entry with
  | .pool receiver true => s.enqueue receiver .shared ⟨id, none, work⟩
  | .pool receiver false => s.offer receiver ⟨id, none, work⟩
  | .token receiver t true => s.enqueueVia receiver t ⟨id, none, work⟩
  | .token receiver t false => s.offerVia receiver t ⟨id, none, work⟩
  | .batch b admission => s.submitToBatch b admission id work

end System

end TaskPool
