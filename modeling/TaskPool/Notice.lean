import TaskPool.Batch

/-!
# Log events

A notice says what happened to a pool, a token or a batch, together with the names and numbers that
belong to it. Its level, its text and its fields are functions of the notice, so no other module
words a log line. The numbered names inside a notice are not logged; they tell apart two objects of
one name. What a batch logs of a failure ends with the line that describes the failure.

The notices are the log events of `ThreadPool`, `ProducerToken`, `TaskSetBase` and
`CompletionState`. What the threads of workers log when they start and stop is left out.
-/

namespace TaskPool

inductive Level where
  | trace
  | debug
  | info
  | warn
  | error
  deriving Repr, DecidableEq

def Level.label : Level → String
  | .trace => "TRACE"
  | .debug => "DEBUG"
  | .info => "INFO"
  | .warn => "WARN"
  | .error => "ERROR"

inductive Field where
  | text (s : String)
  | count (n : Nat)
  deriving Repr, DecidableEq

/-- What is seen of a log event. -/
structure Line where
  level : Level
  message : String
  fields : List (String × Field)
  deriving Repr, DecidableEq

inductive Notice where
  /-- The thread of a worker could not be started. -/
  | workerFailed (pool : PoolId) (name : String) (index : Nat) (reason : String)
  | poolStarted (pool : PoolId) (name : String) (workers requested : Nat)
  | poolClosing (pool : PoolId) (name : String)
  | poolClosed (pool : PoolId) (name : String) (leftover : Nat)
  | poolSaturated (pool : PoolId) (name : String)
  | jobPanicked (job : JobId) (pool : PoolId) (name : String)
  | tokenRegistered (token : TokenId) (poolName : String)
  | tokenReleased (token : TokenId) (poolName : String) (moved : Nat)
  /-- A job was submitted at one pool through a token that another pool issued. -/
  | foreignToken (token : TokenId) (receiver issuer : String)
  | batchCreated (batch : BatchId) (poolName : String) (threshold : Nat)
  | batchSaturated (batch : BatchId) (poolName : String) (threshold : Nat)
  | taskPanicked (batch : BatchId) (job : JobId) (poolName : String)
  | failureDiscarded (batch : BatchId) (poolName : String) (failure : Failure)
  | batchClosed (batch : BatchId) (poolName : String) (kind : BatchKind)
  | failureUnobserved (batch : BatchId) (poolName : String) (kind : BatchKind) (failure : Failure)
  deriving Repr

namespace Notice

/-- The level of a notice: panics and lost failures are errors, what the library does about them is
a warning, and single submissions are only traced. -/
def level : Notice → Level
  | poolStarted .. | poolClosing .. | poolClosed .. => .info
  | poolSaturated .. | tokenRegistered .. | tokenReleased .. | batchSaturated .. => .trace
  | workerFailed .. | jobPanicked .. | taskPanicked .. | failureUnobserved .. => .error
  | foreignToken .. | failureDiscarded .. => .warn
  | batchCreated .. | batchClosed .. => .debug

def message : Notice → String
  | workerFailed _ _ _ reason => "Failed to spawn worker thread: " ++ reason
  | poolStarted .. => "Thread pool started."
  | poolClosing .. => "Thread pool shutting down."
  | poolClosed .. => "Thread pool stopped."
  | poolSaturated .. => "Pool saturated, running job inline."
  | jobPanicked .. => "Pool job panicked; the panic was contained."
  | tokenRegistered .. => "Producer token registered."
  | tokenReleased .. => "Producer token released."
  | foreignToken .. => "Producer token from another pool, queueing there."
  | batchCreated .. => "Task set created."
  | batchSaturated .. => "Task set saturated, running task inline."
  | taskPanicked .. => "Task panicked during execution."
  | failureDiscarded _ _ failure =>
      "Discarding task panic, an earlier failure is already pending: " ++ failure.describe
  | batchClosed .. => "Task set dropped after all tasks completed."
  | failureUnobserved _ _ _ failure =>
      "Task set dropped with an unobserved task failure: " ++ failure.describe

/-- The fields of a notice. The first one always names a pool: the pool that reports. -/
def fields : Notice → List (String × Field)
  | workerFailed _ name index _ => [("pool_name", .text name), ("index", .count index)]
  | poolStarted _ name workers requested =>
      [("pool_name", .text name), ("num_threads", .count workers), ("requested", .count requested)]
  | poolClosing _ name | poolSaturated _ name | jobPanicked _ _ name | tokenRegistered _ name
  | taskPanicked _ _ name | failureDiscarded _ name _ =>
      [("pool_name", .text name)]
  | poolClosed _ name leftover => [("pool_name", .text name), ("leftover", .count leftover)]
  | tokenReleased _ name moved => [("pool_name", .text name), ("moved", .count moved)]
  | foreignToken _ receiver issuer =>
      [("pool_name", .text receiver), ("token_pool", .text issuer)]
  | batchCreated _ name threshold | batchSaturated _ name threshold =>
      [("pool_name", .text name), ("load_threshold", .count threshold)]
  | batchClosed _ name kind | failureUnobserved _ name kind _ =>
      [("pool_name", .text name), ("kind", .text kind.label)]

def line (notice : Notice) : Line := ⟨notice.level, notice.message, notice.fields⟩

@[simp] theorem line_poolClosing (p : PoolId) (name : String) : (poolClosing p name).line =
    ⟨.info, "Thread pool shutting down.", [("pool_name", .text name)]⟩ := rfl

@[simp] theorem line_poolClosed (p : PoolId) (name : String) (leftover : Nat) :
    (poolClosed p name leftover).line =
      ⟨.info, "Thread pool stopped.", [("pool_name", .text name), ("leftover", .count leftover)]⟩ :=
  rfl

@[simp] theorem line_foreignToken (t : TokenId) (receiver issuer : String) :
    (foreignToken t receiver issuer).line =
      ⟨.warn, "Producer token from another pool, queueing there.",
        [("pool_name", .text receiver), ("token_pool", .text issuer)]⟩ := rfl

/-! ## What a notice is about -/

def batch? : Notice → Option BatchId
  | batchCreated b .. | batchSaturated b .. | taskPanicked b .. | failureDiscarded b ..
  | batchClosed b .. | failureUnobserved b .. => some b
  | _ => none

/-- The job that panicked. -/
def job? : Notice → Option JobId
  | jobPanicked job .. | taskPanicked _ job _ => some job
  | _ => none

def failure? : Notice → Option Failure
  | failureDiscarded _ _ failure | failureUnobserved _ _ _ failure => some failure
  | _ => none

end Notice

end TaskPool
