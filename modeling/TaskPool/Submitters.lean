import TaskPool.SharedPool
import TaskPool.Submission
import TaskPool.World

/-!
# Submissions under contention

Several threads submit to the batches and pools of one system. The load checks are not atomic. A
thread reads the count of a batch, compares it with the threshold, and only in a later step enlists
the task; and it reads the count of a pool, compares it with the limit, and only in a later step
counts the job. The steps of other threads may come in between, and raise the same count.

A thread that is turned away runs the job itself before it goes on, and the job may submit and be
turned away again. So a thread runs jobs one inside the other.

What leaves the counts alone, such as making or closing an object or moving the jobs of a released
token, is taken in one go. Who may do that and when makes no difference to the counts, so it may
happen at any time.

The steps are those of `should_run_inline` and `package` of `TaskSetBase` and of `overloaded` and
`push` of `PoolShared`, as the entry points of `TaskPool.Submission` call them.
-/

namespace TaskPool

/-- Whether a submission passes the load check of the pool. -/
def Entry.isPlain : Entry → Bool
  | .pool _ forced | .token _ _ forced => !forced
  | .batch _ admission => admission = .checked

/-- A job on its way to an inlet of a pool. -/
structure Errand where
  job : Job Work
  pool : PoolId
  inlet : Inlet
  /-- Whether the load of the pool is checked first. -/
  checks : Bool

/-- How far a thread has come with a submission or with taking a job. -/
inductive Activity where
  /-- It is doing neither. -/
  | free
  /-- It is about to read the count of a batch. -/
  | asks (b : BatchId) (errand : Errand)
  /-- It has read the count of a batch. -/
  | read (b : BatchId) (errand : Errand) (count : Nat)
  /-- It is past the check of a batch, and the task is not enlisted yet. -/
  | admitted (b : BatchId) (errand : Errand)
  /-- It is about to look whether a worker of the pool sleeps. -/
  | offers (errand : Errand)
  /-- It found no worker asleep, and is about to read the count of the pool. -/
  | awake (errand : Errand)
  /-- It has read the count of the pool. -/
  | weighed (errand : Errand) (count : Nat)
  /-- It is past the check of the pool, and the job is not counted yet. -/
  | enters (errand : Errand)
  /-- The job is counted, and not filed yet. -/
  | counted (errand : Errand)
  /-- It has drawn a job from a queue of a pool, and not discounted it yet. -/
  | drawn (p : PoolId) (job : Job Work)

/-- A thread, with the jobs that it runs one inside the other, the innermost first. -/
structure Strand where
  doing : Activity := .free
  jobs : List (Job Work) := []

namespace Errand

def wrapped (b : BatchId) (errand : Errand) : Errand :=
  { errand with job := { errand.job with batch := some b } }

def next (errand : Errand) : Activity := if errand.checks then .offers errand else .enters errand

def first (errand : Errand) : Entry → Activity
  | .pool .. | .token .. => errand.next
  | .batch b .forced => .admitted b errand
  | .batch b .checked | .batch b .ownCheck => .asks b errand

end Errand

namespace System

def errand (entry : Entry) (work : Work) (s : System Work) : Errand where
  job := ⟨⟨s.submissions⟩, none, work⟩
  pool := (s.inletOf entry).1
  inlet := (s.inletOf entry).2
  checks := entry.isPlain

def isOpen (s : System Work) : Entry → Bool
  | .pool receiver _ => (s.pool receiver).stage = .live
  | .token receiver t _ => (s.pool receiver).stage = .live && (s.token t).stage = .live
  | .batch b _ => (s.batch b).stage = .live

/-- The changes that leave all counts alone. Where an object is made, it has a count of its own. -/
inductive Arranges (s : System Work) : System Work → Prop where
  | startsPool (reasons : Nat → Option String) (config : PoolConfig) :
      Arranges s (s.startPool reasons config).2.1
  | issuesToken {p : PoolId} (known : p.index < s.pools.length) :
      Arranges s (s.issueToken p).2.1
  | makesBatch {p : PoolId} (single : Bool) (multiplier : Nat)
      (known : p.index < s.pools.length) : Arranges s (s.makeBatch p single multiplier).2.1
  | delivers (b : BatchId) : Arranges s (s.deliver b).2
  | releasesToken (t : TokenId) : Arranges s (s.releaseToken t).1
  | closesBatch (b : BatchId) : Arranges s (s.closeBatch b).1
  | beginsClosingPool (p : PoolId) : Arranges s (s.beginClosingPool p).1
  | closesPool (p : PoolId) (leftover : Nat) : Arranges s (s.closePool p leftover).1
  | sleeps (p : PoolId) : Arranges s (s.modifyPool p fun p => { p with asleep := p.asleep + 1 })
  | wakes (p : PoolId) : Arranges s (s.modifyPool p fun p => { p with asleep := p.asleep - 1 })
  | stops (p : PoolId) : Arranges s (s.modifyPool p fun p => { p with working := p.working - 1 })

end System

structure Submitters where
  system : System Work
  threads : List Strand

/-- What can be seen of a step. -/
inductive Act where
  /-- A thread submits work, and unless it runs the work right away it goes to the pool. -/
  | submits (thread : Nat) (entry : Entry) (pool : PoolId)
  /-- The check of a pool found that many workers asleep. -/
  | checks (pool : PoolId) (asleep : Nat)
  | other
  deriving Repr, DecidableEq

namespace Submitters

def start (threads : Nat) : Submitters where
  system := {}
  threads := List.replicate threads {}

def turn (before : List Strand) (doing : Activity) (jobs : List (Job Work)) (after : List Strand)
    (system : System Work) : Submitters where
  system
  threads := before ++ ⟨doing, jobs⟩ :: after

/-- The indivisible steps. -/
inductive Step (s : Submitters) : Act → Submitters → Prop where
  | submits {before jobs after} (entry : Entry) (work : Work)
      (thread : s.threads = before ++ ⟨.free, jobs⟩ :: after)
      (opened : s.system.isOpen entry = true) :
      Step s (.submits before.length entry (s.system.inletOf entry).1)
        (turn before ((s.system.errand entry work).first entry) jobs after
          { s.system with submissions := s.system.submissions + 1 })
  | reads {before b errand jobs after}
      (thread : s.threads = before ++ ⟨.asks b errand, jobs⟩ :: after) :
      Step s .other (turn before (.read b errand (s.system.batch b).barrier.outstanding) jobs after
        s.system)
  /-- A saturated batch leaves the thread with the raw job. -/
  | declines {before b errand count jobs after}
      (thread : s.threads = before ++ ⟨.read b errand count, jobs⟩ :: after)
      (exceeds : s.system.threshold b < count) :
      Step s .other (turn before .free (errand.job :: jobs) after s.system)
  | admits {before b errand count jobs after}
      (thread : s.threads = before ++ ⟨.read b errand count, jobs⟩ :: after)
      (within : count ≤ s.system.threshold b) :
      Step s .other (turn before (.admitted b errand) jobs after s.system)
  | wraps {before b errand jobs after}
      (thread : s.threads = before ++ ⟨.admitted b errand, jobs⟩ :: after) :
      Step s .other (turn before (errand.wrapped b).next jobs after
        (s.system.modifyBatch b (·.mapBarrier .enlist)))
  | looks {before errand jobs after}
      (thread : s.threads = before ++ ⟨.offers errand, jobs⟩ :: after) :
      Step s (.checks errand.pool (s.system.pool errand.pool).asleep)
        (turn before (if (s.system.pool errand.pool).asleep = 0 then .awake errand
          else .enters errand) jobs after s.system)
  | weighs {before errand jobs after}
      (thread : s.threads = before ++ ⟨.awake errand, jobs⟩ :: after) :
      Step s .other (turn before (.weighed errand (s.system.pool errand.pool).queued) jobs after
        s.system)
  /-- A saturated pool leaves the thread with the job, wrapped or raw. -/
  | rejects {before errand count jobs after}
      (thread : s.threads = before ++ ⟨.weighed errand count, jobs⟩ :: after)
      (exceeds : (s.system.pool errand.pool).limit < count) :
      Step s .other (turn before .free (errand.job :: jobs) after s.system)
  | accepts {before errand count jobs after}
      (thread : s.threads = before ++ ⟨.weighed errand count, jobs⟩ :: after)
      (within : count ≤ (s.system.pool errand.pool).limit) :
      Step s .other (turn before (.enters errand) jobs after s.system)
  | counts {before errand jobs after}
      (thread : s.threads = before ++ ⟨.enters errand, jobs⟩ :: after) :
      Step s .other (turn before (.counted errand) jobs after
        (s.system.modifyPool errand.pool .count))
  | files {before errand jobs after}
      (thread : s.threads = before ++ ⟨.counted errand, jobs⟩ :: after) :
      Step s .other (turn before .free jobs after
        (s.system.modifyPool errand.pool (.file errand.inlet errand.job)))
  | draws {before jobs after job rest} (p : PoolId) (inlet : Inlet)
      (thread : s.threads = before ++ ⟨.free, jobs⟩ :: after)
      (drawn : (s.system.pool p).draw inlet = some (job, rest)) :
      Step s .other (turn before (.drawn p job) jobs after (s.system.modifyPool p fun _ => rest))
  | discounts {before p job jobs after}
      (thread : s.threads = before ++ ⟨.drawn p job, jobs⟩ :: after) :
      Step s .other (turn before .free (job :: jobs) after (s.system.modifyPool p .discount))
  /-- A job ends, and reports to its batch if it was wrapped for one. -/
  | ends {before job jobs after} (panicked : Option Payload)
      (thread : s.threads = before ++ ⟨.free, job :: jobs⟩ :: after) :
      Step s .other (turn before .free jobs after (match job.batch with
        | none => s.system
        | some b => (s.system.settle b job.id panicked).1))
  | arranges {system} (arranged : s.system.Arranges system) : Step s .other { s with system }

inductive Run (s : Submitters) : List Act → Submitters → Prop where
  | refl : Run s [] s
  | step {acts s' act s''} (run : Run s acts s') (step : Step s' act s'') :
      Run s (acts ++ [act]) s''

end Submitters

end TaskPool
