import TaskPool.Barrier

/-!
# A barrier under contention

Tasks that end on several threads report to one barrier while a waiter looks after it. Every access
to a cell of the barrier is one indivisible step, and the steps of the tasks and of the waiter come
in any order. To keep the first failure takes a task two steps, to raise the flag and to write the
failure; to deliver it takes the waiter two steps, to take the failure and to lower the flag. So
each of them may be halfway when the other one looks.

A batch lets nobody submit to it while somebody waits for it, so tasks are enlisted only while the
waiter is idle.

`SharedBarrier` is `CompletionState` as several threads see it: `complete` and `capture` on the side
of the tasks, the loop of `wait` and `take_error` on the side of the waiter.
-/

namespace TaskPool

inductive Phase where
  | running
  /-- The body panicked, and the place of the first failure is not claimed for it yet. -/
  | panicked (f : Failure)
  /-- The claim was won, and the failure is not written yet. -/
  | won (f : Failure)
  /-- Only the count is left to be taken down. -/
  | retiring
  | retired
  deriving Repr

inductive Waiter where
  | idle
  /-- In a wait that has not found the barrier clear. -/
  | waiting
  /-- In an attempt that has not asked whether the barrier is clear. -/
  | trying
  /-- About to take the failure, after the barrier was found clear or not. -/
  | ready (clear : Bool)
  /-- A failure was taken, and the flag is not lowered yet. -/
  | reopening (clear : Bool) (f : Failure)
  deriving Repr

/-- A barrier, the tasks that report to it in the order in which they were enlisted, and the one
that waits for them. -/
structure SharedBarrier where
  barrier : Barrier := {}
  tasks : List Phase := []
  waiter : Waiter := .idle
  /-- The tasks that won a claim, by number, with their failures, in the order of the claims. -/
  wins : List (Nat × Failure) := []
  /-- The failures that were taken, in order. -/
  takes : List Failure := []
  deriving Repr

namespace SharedBarrier

/-- A claim is made for a failure. Who finds the flag raised already discards the failure. -/
def claim (f : Failure) (before after : List Phase) (s : SharedBarrier) : SharedBarrier :=
  match s.barrier.claim with
  | (true, barrier) =>
    { s with
      barrier
      tasks := before ++ .won f :: after
      wins := s.wins ++ [(before.length, f)] }
  | (false, barrier) => { s with barrier, tasks := before ++ .retiring :: after }

/-- The waiter takes what is in the place of the first failure. If there is nothing, it is done. -/
def take (clear : Bool) (s : SharedBarrier) : SharedBarrier :=
  match s.barrier.take with
  | (some f, barrier) =>
    { s with barrier, waiter := .reopening clear f, takes := s.takes ++ [f] }
  | (none, barrier) => { s with barrier, waiter := .idle }

/-- The indivisible steps. -/
inductive Step (s : SharedBarrier) : SharedBarrier → Prop where
  | enlists (idle : s.waiter = .idle) :
      Step s { s with barrier := s.barrier.enlist, tasks := s.tasks ++ [.running] }
  | ends {before after} (task : s.tasks = before ++ .running :: after) :
      Step s { s with tasks := before ++ .retiring :: after }
  | panics {before after} (f : Failure) (task : s.tasks = before ++ .running :: after) :
      Step s { s with tasks := before ++ .panicked f :: after }
  | claims {before f after} (task : s.tasks = before ++ .panicked f :: after) :
      Step s (s.claim f before after)
  | writes {before f after} (task : s.tasks = before ++ .won f :: after) :
      Step s { s with barrier := s.barrier.fill f, tasks := before ++ .retiring :: after }
  | retires {before after} (task : s.tasks = before ++ .retiring :: after) :
      Step s { s with barrier := s.barrier.retire, tasks := before ++ .retired :: after }
  | waits (idle : s.waiter = .idle) : Step s { s with waiter := .waiting }
  | tries (idle : s.waiter = .idle) : Step s { s with waiter := .trying }
  /-- A wait goes on only when it finds the barrier clear. -/
  | passes (waiting : s.waiter = .waiting) (clear : s.barrier.isClear = true) :
      Step s { s with waiter := .ready true }
  /-- An attempt goes on in any case. -/
  | asks (trying : s.waiter = .trying) :
      Step s { s with waiter := .ready s.barrier.isClear }
  | takes {clear} (ready : s.waiter = .ready clear) : Step s (s.take clear)
  | reopens {clear f} (reopening : s.waiter = .reopening clear f) :
      Step s { s with barrier := s.barrier.reopen, waiter := .idle }

inductive Reaches (s : SharedBarrier) : SharedBarrier → Prop where
  | refl : Reaches s s
  | step {s' s''} (reaches : Reaches s s') (step : Step s' s'') : Reaches s s''

def Reachable (s : SharedBarrier) : Prop := ({} : SharedBarrier).Reaches s

end SharedBarrier

end TaskPool
