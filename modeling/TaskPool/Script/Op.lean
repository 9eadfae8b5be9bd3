import TaskPool.Payload
import TaskPool.Script.Argument

/-!
# Operations

A script is a list of operations. Some are carried out by pools, tokens and batches; the others
serve to observe them: notes, counters that several threads may change, and gates at which threads
wait for each other. A task body is a script too, so operations contain operations.
-/

namespace TaskPool

inductive Via where
  | plain
  | forced
  /-- Skip the load check of the pool, but not that of the batch. -/
  | skip
  /-- A way that no object supports. -/
  | unknown
  deriving Repr, DecidableEq

/-- What becomes of a failure that a wait delivers. -/
inductive OnFailure where
  /-- It is the reply. -/
  | report
  /-- The captured payload is raised again. -/
  | rethrow
  /-- The failure itself is raised, as a payload of its own. -/
  | raiseFailure
  /-- The description of the failure is raised as text. -/
  | raiseText
  deriving Repr, DecidableEq

inductive TaskSource (Op : Type) where
  /-- A body that the script defines by name; the name is also the label of the task. -/
  | named (name : String)
  /-- A body of its own. -/
  | own (label : String) (body : List Op)
  deriving Repr

inductive Op where
  /-- Something that is no operation. -/
  | malformed
  /-- An operation whose panic becomes its reply. -/
  | catching (op : Op)
  | defaults
  | pool (id : Arg String) (threads : Arg Nat) (name : Arg String) (multiplier idleMs : Arg Nat)
  | commonPool (id : Arg String)
  | token (id pool : Arg String)
  | batch (id pool : Arg String) (multiplier : Arg Nat) (single : Arg Bool)
  | drop (id : Arg String)
  | schedule (on : Arg String) (task : Arg (TaskSource Op)) (via : Arg Via) (token : Arg String)
  | exec (on token : Arg String)
  | execAll (on token : Arg String)
  | wait (on : Arg String) (onFailure : OnFailure) (elsewhere : Bool)
  | tryWait (on : Arg String) (max : Arg Nat) (onFailure : OnFailure)
  | stat (on : Arg String)
  | panic (payload : Arg Payload)
  | note (value : Value)
  | thread
  | sleep (ms : Arg Nat)
  | add (counter : Arg String) (amount : Arg Int)
  | count (counter : Arg String)
  | awaitCount (counter : Arg String) (atLeast : Arg Int)
  | openGate (gate : Arg String)
  | block (gate : Arg String)
  | awaitArrived (gate : Arg String) (arrivals : Arg Nat)
  | hold (on gate : Arg String) (workers : Arg Nat)
  | producers (threads : Arg (List (List Op)))

/-- What is no operation stands for any. -/
instance : Inhabited Op := ⟨.malformed⟩

/-- The operation without its catches, and whether there was any. -/
def Op.uncaught : Op → Bool × Op
  | .catching op => (true, op.uncaught.2)
  | op => (false, op)

end TaskPool
