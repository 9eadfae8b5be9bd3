import TaskPool.Machine.Run

/-!
# Runs on one thread

A solo run carries out a script on the driver thread alone. A pool with workers and an operation
that moves to a thread of its own both add threads, so in a solo run every pool is without workers
and every job runs on the driver thread.

A `Scene` is what the theory looks at in such a machine: the system, the names and loans, the stack
with its signal, and everything that happened. Counters, gates and the clock decide nothing about
jobs and are left out.
-/

namespace TaskPool

namespace Machine

def history (m : Machine) : List Event := m.journal.reverse.map (·.event)

/-- A machine that is reached by carrying out a script, any script, on the driver thread alone. -/
inductive Solo : Machine → Prop where
  | load (bodies : Table (List Op)) (host : Host) (ops : List Op) :
      Solo (Machine.load bodies host ops)
  | turn {m next : Machine} (run : Solo m) (step : m.step = some next)
      (alone : next.others = []) : Solo next

theorem Solo.run {m : Machine} (solo : m.Solo) (fuel : Nat)
    (alone : ∀ k ≤ fuel, (m.run k).others.isEmpty = true) : (m.run fuel).Solo := by
  induction fuel generalizing m with
  | zero => exact solo
  | succ fuel ih =>
      simp only [Machine.run]
      cases stepped : m.step with
      | none => exact solo
      | some next =>
          have later : ∀ k ≤ fuel, (next.run k).others.isEmpty = true := by
            intro k below
            have := alone (k + 1) (by omega)
            simpa only [Machine.run, stepped] using this
          have first : next.others = [] := List.isEmpty_iff.mp (later 0 (by omega))
          exact ih (.turn solo stepped first) later

theorem Solo.others {m : Machine} (solo : m.Solo) : m.others = [] := by
  cases solo with
  | load => rfl
  | turn _ _ alone => exact alone

@[simp] theorem record_events (thread : ThreadId) (events : List Event) (journal : List Record) :
    (record thread events journal).reverse.map (·.event) =
      journal.reverse.map (·.event) ++ events := by
  induction events generalizing journal with
  | nil => simp [record]
  | cons event rest ih =>
      have later := ih (⟨thread, event⟩ :: journal)
      simp only [record, List.foldl_cons, List.reverse_cons, List.map_append, List.map_cons,
        List.map_nil, List.append_assoc, List.singleton_append] at later ⊢
      exact later

end Machine

/-- What the theory looks at in a machine with one thread. -/
structure Scene where
  system : System Work
  names : Table Object
  loans : List Loan
  frames : List Frame
  signal : Signal
  /-- Everything that happened so far, the first event first. -/
  history : List Event

def Machine.scene (m : Machine) : Scene where
  system := m.world.system
  names := m.world.names
  loans := m.world.loans
  frames := m.driver.frames
  signal := m.driver.signal
  history := m.history

/-- Work that carries out the body of a task, with the names that a job gives it. In a solo run all
jobs are of this kind; the other kind only occupies workers. -/
structure Task where
  id : JobId
  batch : Option BatchId
  label : String
  ops : List Op
  onBatch : Option String

namespace Task

def job (task : Task) : Job Work := ⟨task.id, task.batch, .body task.label task.ops task.onBatch⟩

/-- The frames of a task that was just started: its body, and below it the report to its batch. -/
def frames (task : Task) : List Frame :=
  .body task.id task.label 0 task.ops task.onBatch :: task.batch.toList.map (.settle task.id)

def started (task : Task) : Event := .started task.id task.label

@[simp] theorem job_id (task : Task) : task.job.id = task.id := rfl

@[simp] theorem job_batch (task : Task) : task.job.batch = task.batch := rfl

end Task

/-- What an operation is asked of that submits or runs work. -/
inductive Target where
  | pool (p : PoolId)
  | token (receiver : PoolId) (t : TokenId)
  | batch (b : BatchId)

namespace Target

/-- What an operation on the target holds. A batch is held as the operation asks for it, and
everything else is just in use. -/
def loans (hold : Hold) : Target → List Loan
  | pool p => [⟨.pool p, .use⟩]
  | token receiver t => [⟨.pool receiver, .use⟩, ⟨.token t, .use⟩]
  | batch b => [⟨.batch b, hold⟩]

def source (s : System Work) : Target → Source
  | pool p => .pool p
  | token receiver t => .lane receiver t
  | batch b => s.sourceOf b

def batch? : Target → Option BatchId
  | batch b => some b
  | _ => none

end Target

def Entry.target : Entry → Target
  | .pool receiver _ => .pool receiver
  | .token receiver t _ => .token receiver t
  | .batch b _ => .batch b

/-- The events by which a script tells what came back to it. -/
def Event.isScript : Event → Bool
  | .replied .. | .answered .. => true
  | _ => false

def Signal.panic? : Signal → Option Payload
  | .raised payload => some payload
  | _ => none

def Signal.isOutcome : Signal → Bool
  | .proceed => false
  | .returned _ | .raised _ => true

/-- What a wait replies. A failure is told whether or not the barrier is clear. -/
def Goal.answer (goal : Goal) (clear : Bool) : Option Failure → Reply
  | some failure => .failed failure
  | none => if goal = .tryWait then .flag clear else .finished

theorem Goal.answer_flag {goal : Goal} {clear told : Bool} {failure : Option Failure}
    (answer : goal.answer clear failure = .flag told) : told = clear ∧ failure = none := by
  cases failure with
  | some => cases answer
  | none =>
      simp only [Goal.answer] at answer
      split at answer <;> cases answer
      exact ⟨rfl, rfl⟩

theorem Goal.answer_failed {goal : Goal} {clear : Bool} {outcome : Option Failure}
    {failure : Failure} : goal.answer clear outcome = .failed failure ↔ outcome = some failure := by
  cases outcome with
  | some => simp [Goal.answer]
  | none => cases goal <;> simp [Goal.answer]

namespace Frame

/-- A script, a task body or the clean-up goes on: only the operations that are left may differ. -/
inductive Continues : Frame → Frame → Prop where
  | program {rest rest'} : Continues (.program rest) (.program rest')
  | cleanup : Continues .cleanup .cleanup
  | body {job label next next' rest rest' onBatch} :
      Continues (.body job label next rest onBatch) (.body job label next' rest' onBatch)

def isPause : Frame → Bool
  | .await .. | .nap _ | .joining _ => true
  | _ => false

/-- The batches that a sweep shares while a job of it runs. -/
def shares (batch : Option BatchId) : List Loan := batch.toList.map (⟨.batch ·, .share⟩)

end Frame

end TaskPool
