import TaskPool.World

/-!
# Threads and their stacks

A thread is a stack of frames. A frame is something that was begun and is not finished: a script, an
operation in progress, a job that somebody answers for, a wait. What just happened above a frame
reaches it as a signal. A panic is such a signal: it goes down the stack, from frame to frame, until
one of them turns it into a reply.
-/

namespace TaskPool

/-- What a wait on a batch is for. -/
inductive Goal where
  | wait
  | tryWait
  /-- The batch is being closed. -/
  | close
  deriving Repr, DecidableEq

/-- What a blocked thread waits for. -/
inductive Condition where
  | counted (counter : String) (atLeast : Int)
  | arrived (gate : String) (arrivals : Nat)
  | opened (gate : String)
  deriving Repr

/-- Something begun and not finished. -/
inductive Frame where
  /-- The rest of the script of the driver thread. -/
  | program (rest : List Op)
  /-- Drops every object that is left, one after the other. -/
  | cleanup
  /-- The rest of the script of another thread, with its replies so far. -/
  | strand (rest : List Op) (replies : List Reply)
  /-- Hands the reply of this thread over to the thread that joins it. -/
  | handOver
  /-- The loop of a worker. -/
  | worker (pool : PoolId) (asleep : Bool)
  /-- A task body: the number of the operation in progress or next, and the operations after it. -/
  | body (job : JobId) (label : String) (next : Nat) (rest : List Op) (onBatch : Option String)
  /-- An operation in progress, with what it holds and what becomes of its outcome. -/
  | call (loans : List Loan) (onFailure : OnFailure) (caught : Bool)
  /-- A job whose end is reported to a batch. -/
  | settle (job : JobId) (batch : BatchId)
  /-- A job taken from a queue, for which the pool answers that was asked. -/
  | contain (job : JobId) (pool : PoolId)
  /-- Replies that a job was run. -/
  | executed
  /-- Runs jobs from a source until there is none. For each of them a batch is shared anew. -/
  | sweep (source : Source) (batch : Option BatchId) (count : Nat)
  /-- Runs jobs until the barrier of a batch is clear, or until a budget of jobs is used up. -/
  | waiting (batch : BatchId) (budget : Option Nat) (goal : Goal)
  /-- Runs what is left in a pool that is closing. -/
  | closing (pool : PoolId) (ran : Nat)
  /-- Waits for a condition and gives up at an instant. -/
  | await (condition : Condition) (deadline : Nat)
  /-- Sleeps until an instant. -/
  | nap (deadline : Nat)
  /-- Waits for threads to finish. -/
  | joining (threads : List ThreadId)
  /-- Waits for a thread to finish and gives a batch its name back. -/
  | reclaim (name : String) (batch : BatchId) (thread : ThreadId)

inductive Signal where
  /-- The frame is on top of the stack for the first time. -/
  | proceed
  /-- What was above the frame has returned. -/
  | returned (reply : Reply)
  /-- A panic left what was above the frame. -/
  | raised (payload : Payload)

/-- A thread: its stack, top first, and what the top frame is told next. -/
structure Thread where
  id : ThreadId
  frames : List Frame
  signal : Signal := .proceed

/-- What a frame knows about the thread that it is on. -/
structure Context where
  thread : ThreadId
  /-- The names of the batches whose tasks the thread is running. -/
  batches : List String
  /-- Whether the operation belongs to the script of the driver thread itself. -/
  topLevel : Bool := false

/-- What happens when a frame takes its turn: the frame is replaced by the frames that it pushes,
and the new top frame is told the signal. -/
structure Turn where
  world : World
  events : List Event := []
  push : List Frame := []
  signal : Signal := .proceed
  spawn : List Thread := []

namespace Turn

def above (frames : List Frame) (turn : Turn) : Turn := { turn with push := turn.push ++ frames }

def after (events : List Event) (turn : Turn) : Turn :=
  { turn with events := events ++ turn.events }

def reply (w : World) (reply : Reply) : Turn := { world := w, signal := .returned reply }

/-- How long a condition is awaited before it is given up, in milliseconds. -/
def patience : Nat := 10000

def await (w : World) (condition : Condition) : Turn :=
  { world := w, push := [.await condition (w.clock + patience)] }

/-- The longest sleep, in milliseconds. -/
def longestNap : Nat := 100

def sleep (w : World) (ms : Nat) : Turn :=
  { world := w, push := [.nap (w.clock + min ms longestNap)] }

end Turn

/-- Log events as events of the journal. -/
def Event.ofNotices (notices : List Notice) : List Event := notices.map .logged

/-- The names of the batches whose tasks are running in a stack. -/
def Frame.batchNames (frames : List Frame) : List String :=
  frames.filterMap fun
    | .body _ _ _ _ onBatch => onBatch
    | _ => none

end TaskPool
