import TaskPool.Journal
import TaskPool.Script.Op
import TaskPool.Script.Table

/-!
# The world of a script

A world is a system together with what a script sees of it: names for live objects, and the loans
that keep an object from being used or dropped while an operation on it is in progress. It also
holds the counters, the gates and the clock, which belong to the script alone.

A batch may be waited for by one operation only, and by none while another operation uses it; every
other operation on a batch may share it. An object that an operation uses cannot be dropped. An
object loses its name before its closing starts, so the jobs that run during the closing do not find
it.

The `Host` stands for what a script cannot choose: the number of processors, how many threads a pool
may be asked for, and which of them the machine fails to start. The pools and batches themselves
know no such bound.
-/

namespace TaskPool

/-- What a job does when it runs. -/
inductive Work where
  /-- Carries out the body of a task. A task that was submitted to a batch knows the name that the
  batch had. -/
  | body (label : String) (ops : List Op) (onBatch : Option String)
  /-- Waits at a gate and leaves no trace. -/
  | park (gate : String)

inductive Object where
  | pool (p : PoolId)
  /-- The pool that the whole process shares; dropping the name does not close it. -/
  | commonPool (p : PoolId)
  | token (t : TokenId)
  | batch (b : BatchId)
  deriving Repr, DecidableEq

def Object.isPool : Object → Bool
  | .pool _ | .commonPool _ => true
  | .token _ | .batch _ => false

/-- How an operation holds an object while it is in progress. -/
inductive Hold where
  /-- Nobody may drop it. -/
  | use
  /-- Nobody may drop it or wait for it. -/
  | share
  /-- Nobody else may use it. -/
  | exclude
  deriving Repr, DecidableEq

/-- An object in the hands of an operation. -/
structure Loan where
  object : Object
  hold : Hold
  deriving Repr, DecidableEq

/-- A gate at which threads wait until it is opened. -/
structure Gate where
  isOpen : Bool := false
  arrivals : Nat := 0
  deriving Repr, Inhabited

/-- Where a script is carried out. -/
structure Host where
  /-- The number of processors, which sizes the pool that the whole process shares. -/
  cores : Nat
  /-- The most workers that a script may ask for in a pool, and the most strands that it may run at
  once. -/
  maxThreads : Nat
  /-- Why the thread of a worker cannot be started, if it cannot. -/
  reasons : PoolId → Nat → Option String := fun _ _ => none

/-- A host with one processor that starts every thread. -/
def Host.plain : Host := { cores := 1, maxThreads := 8 }

structure World where
  system : System Work := {}
  /-- The task bodies that the script defines by name. -/
  bodies : Table (List Op) := []
  /-- The live objects. Pools, tokens and batches share one set of names. -/
  names : Table Object := []
  loans : List Loan := []
  counters : Table Int := []
  /-- The gates that somebody opened or came to. -/
  gates : Table Gate := []
  /-- The time that has passed, in milliseconds. -/
  clock : Nat := 0
  host : Host := .plain
  /-- The pool that the whole process shares, once it was asked for. -/
  common : Option PoolId := none
  /-- The number of threads that the script started. -/
  spawned : Nat := 0
  /-- The replies of threads that are finished and have not been joined. -/
  deliveries : List (ThreadId × List Reply) := []

namespace World

/-- Why workers of the pool that is made next cannot be started. -/
def reasons (w : World) : Nat → Option String := w.host.reasons ⟨w.system.pools.length⟩

/-! ## Names -/

/-- Whether a thread other than the driver cannot reach the object: tokens and batches with a single
producer stay on the driver thread. -/
def isLocal (w : World) : Object → Bool
  | .token _ => true
  | .batch b => (w.system.batch b).kind != .multi
  | .pool _ | .commonPool _ => false

/-- The live object of a name, as a thread sees it. -/
def resolve (w : World) (thread : ThreadId) (name : String) : Except Refusal Object :=
  match w.names.find? name with
  | none => .error .noSuch
  | some object =>
    if thread ≠ .driver ∧ w.isLocal object then .error .noSuch else .ok object

/-- Refuses a name for a new object unless the driver thread asks and the name is free. -/
def checkFresh (w : World) (thread : ThreadId) (name : String) : Except Refusal Unit := do
  Refusal.unless (thread == .driver) .wrongThread
  Refusal.unless (w.names.find? name).isNone .duplicate

def resolvePool (w : World) (thread : ThreadId) (name : String) : Except Refusal PoolId := do
  match ← w.resolve thread name with
  | .pool p | .commonPool p => .ok p
  | .token _ | .batch _ => .error .unsupported

def bind (name : String) (object : Object) (w : World) : World :=
  { w with names := w.names.put name object }

def unbind (name : String) (w : World) : World := { w with names := w.names.remove name }

/-! ## Loans -/

def inUse (w : World) (object : Object) : Bool := w.loans.any (·.object = object)

def isAwaited (w : World) (b : BatchId) : Bool := w.loans.contains ⟨.batch b, .exclude⟩

/-- Whether the object must not be dropped now. A pool is also needed by the tokens and batches that
were made from it, until they are closed. -/
def isBusy (w : World) : Object → Bool
  | .pool p => w.inUse (.pool p) || w.system.dependsOnPool p
  | .commonPool _ => false
  | object => w.inUse object

def lend (loans : List Loan) (w : World) : World := { w with loans := loans ++ w.loans }

def giveBack (loans : List Loan) (w : World) : World :=
  { w with loans := loans.foldl List.erase w.loans }

/-! ## Counters and gates -/

/-- The value of a counter; a counter that was never changed is zero. -/
def count (w : World) (counter : String) : Int := (w.counters.find? counter).getD 0

def add (counter : String) (amount : Int) (w : World) : World :=
  { w with counters := w.counters.put counter (w.count counter + amount) }

/-- The gate of a name; a gate that is not known yet is closed. -/
def gate (w : World) (name : String) : Gate := (w.gates.find? name).getD {}

def modifyGate (name : String) (f : Gate → Gate) (w : World) : World :=
  { w with gates := w.gates.put name (f (w.gate name)) }

/-- Makes a gate known without changing it. -/
def meetGate (name : String) (w : World) : World := w.modifyGate name id

def openGate (name : String) (w : World) : World := w.modifyGate name ({ · with isOpen := true })

/-- Whether a known gate is closed. -/
def hasClosedGate (w : World) : Bool := w.gates.any (!·.2.isOpen)

/-- Opens every known gate. A gate that becomes known later is closed. -/
def openAllGates (w : World) : World :=
  { w with gates := w.gates.map fun (name, gate) => (name, { gate with isOpen := true }) }

def arrive (name : String) (w : World) : World :=
  w.modifyGate name fun gate => { gate with arrivals := gate.arrivals + 1 }

/-! ## Reports -/

def poolState (w : World) (p : PoolId) : Reply :=
  let pool := w.system.pool p
  .poolState pool.name pool.workers pool.queued

/-- The state of a batch, as a reply. How many threads its pool has is not told of the pool that
the whole process shares, since that depends on the machine. -/
def batchState (w : World) (b : BatchId) : Reply :=
  let batch := w.system.batch b
  let pool := w.system.pool batch.pool
  if w.common = some batch.pool then .commonBatchState batch.barrier.outstanding pool.name
  else .batchState batch.barrier.outstanding (w.system.threshold b) pool.workers pool.name

/-- The outstanding and queued counts of all live batches and pools. -/
def snapshot (w : World) : Snapshot :=
  w.names.filterMap fun (name, object) =>
    match object with
    | .pool p | .commonPool p => some (name, (w.system.pool p).queued)
    | .batch b => some (name, (w.system.batch b).barrier.outstanding)
    | .token _ => none

def threadName (w : World) : ThreadId → String
  | .driver => "driver"
  | .worker p index => (w.system.pool p).name ++ "-" ++ toString index
  | .spawned _ => "other"

end World

end TaskPool
