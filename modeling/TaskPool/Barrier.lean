import TaskPool.Payload

/-!
# The barrier of a batch

A barrier counts the tasks of a batch that are not finished yet and keeps the first failure among
them. Who may write the failure is settled by a claim flag: a task that panics raises the flag, and
only the task that found it lowered writes. To deliver the failure is to take it and to lower the
flag, so that the next panic can be kept again. The flag is raised before the failure is written, so
it may be raised while there is nothing to deliver.

`Barrier` is the `CompletionState` of a task set: `outstanding`, `claimed` and `pending` are its
counter, its claim flag and its slot, and each of the short functions is one access to one of them.
`keepFirst` is `capture` and `deliver` is `take_error`.
-/

namespace TaskPool

/-- The state that the tasks of one batch share with the thread that waits for them. -/
structure Barrier where
  /-- Tasks that were enlisted and have not retired. -/
  outstanding : Nat := 0
  /-- Whether some panic has claimed the place of the first failure. -/
  claimed : Bool := false
  /-- The first failure since one was delivered last. -/
  pending : Option Failure := none
  deriving Repr, Inhabited

namespace Barrier

def isClear (b : Barrier) : Bool := b.outstanding == 0

/-- One more task has to retire before the barrier is clear. -/
def enlist (b : Barrier) : Barrier := { b with outstanding := b.outstanding + 1 }

def retire (b : Barrier) : Barrier := { b with outstanding := b.outstanding - 1 }

/-- Raises the claim flag and tells whether it was lowered before. -/
def claim (b : Barrier) : Bool × Barrier := (!b.claimed, { b with claimed := true })

/-- Writes the failure of the task that won the claim. -/
def fill (f : Failure) (b : Barrier) : Barrier := { b with pending := some f }

/-- Takes the pending failure away and leaves the claim flag alone. -/
def take (b : Barrier) : Option Failure × Barrier := (b.pending, { b with pending := none })

def reopen (b : Barrier) : Barrier := { b with claimed := false }

/-- Keeps `f` if its claim wins, and tells whether it was kept. -/
def keepFirst (f : Failure) (b : Barrier) : Bool × Barrier :=
  match b.claim with
  | (true, won) => (true, won.fill f)
  | (false, lost) => (false, lost)

/-- Takes the pending failure, and opens the place for the next one if there was a failure. -/
def deliver (b : Barrier) : Option Failure × Barrier :=
  match b.take with
  | (some f, rest) => (some f, rest.reopen)
  | (none, rest) => (none, rest)

@[simp] theorem isClear_iff {b : Barrier} : b.isClear = true ↔ b.outstanding = 0 := by
  simp [isClear]

@[simp] theorem outstanding_enlist (b : Barrier) : b.enlist.outstanding = b.outstanding + 1 := rfl

@[simp] theorem outstanding_retire (b : Barrier) : b.retire.outstanding = b.outstanding - 1 := rfl

@[simp] theorem outstanding_keepFirst (f : Failure) (b : Barrier) :
    (b.keepFirst f).2.outstanding = b.outstanding := by
  cases h : b.claimed <;> simp [keepFirst, claim, fill, h]

@[simp] theorem outstanding_deliver (b : Barrier) : b.deliver.2.outstanding = b.outstanding := by
  cases h : b.pending <;> simp [deliver, take, reopen, h]

/-- What is delivered is exactly the pending failure. -/
@[simp] theorem deliver_fst (b : Barrier) : b.deliver.1 = b.pending := by
  cases h : b.pending <;> simp [deliver, take, h]

/-- Nothing is pending after a delivery. -/
@[simp] theorem pending_deliver (b : Barrier) : b.deliver.2.pending = none := by
  cases h : b.pending <;> simp [deliver, take, reopen, h]

/-- A failure is kept exactly when no earlier one holds the claim. -/
@[simp] theorem keepFirst_fst (f : Failure) (b : Barrier) : (b.keepFirst f).1 = !b.claimed := by
  cases h : b.claimed <;> simp [keepFirst, claim, h]

end Barrier

end TaskPool
