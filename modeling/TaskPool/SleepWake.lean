import TaskPool.SharedPool

/-!
# A pool and its sleepers

A worker that finds nothing in the queues goes to sleep, and a thread that files a job wakes one of
the workers if anybody is asleep. A lock guards the sleep, but no job is counted or filed under that
lock. Instead, a worker counts itself among the sleepers before it reads the count of jobs, and a
thread counts its job before it reads the count of sleepers. Every access to a cell of the pool is
one indivisible step, and the steps of the threads come in any order.

A worker that begins to wait gives the lock up in the same step. It stops waiting when it is roused
or when it has waited for long enough, and then takes the lock again. To rouse one worker is to
rouse any of those who wait, and nobody if nobody waits.

The thread that closes the pool says so first, and rouses all who wait afterwards.

The count of jobs is `queued_work` and the count of sleepers `num_sleeping` of `PoolShared`. The
steps are those of `wake_one` and `sleep` and of the drop of `ThreadPool`, on top of those of
`SharedPool`.
-/

namespace TaskPool

variable {Work : Type}

/-- What a thread is about to do when it is not at the queues. -/
inductive Doing where
  /-- It is at the queues, or runs code of its own. -/
  | awake
  /-- The same, and it has just looked into all queues and found nothing. -/
  | idle
  /-- It is releasing a token, and has laid a job into the shared queue. -/
  | laying
  /-- There is a new job, and it is about to read the count of sleepers. -/
  | looking
  /-- Somebody is asleep, and it is about to take the lock. -/
  | reaching
  /-- It has the lock, and is about to rouse one of those who wait. -/
  | ringing
  /-- A worker that is about to take the lock. -/
  | drowsy
  /-- It has the lock, and is about to count itself among the sleepers. -/
  | settling
  /-- It is about to read the count of jobs. -/
  | listening
  /-- There was no job, and it is about to read whether the pool is closing. -/
  | checking
  /-- It is about to wait. -/
  | resolved
  /-- It waits, without the lock, and was not roused. -/
  | asleep
  /-- It does not wait any more, and is about to take the lock again. -/
  | stirring
  /-- It has the lock, and is about to count itself among the sleepers no longer. -/
  | rising
  /-- The closing thread, about to take the lock. -/
  | shutting
  /-- It has the lock, and is about to rouse all who wait. -/
  | tolling
  /-- It is about to give the lock up. -/
  | parting
  deriving Repr, DecidableEq

namespace Doing

/-- The thread may go on at the queues or with code of its own. -/
def isUp : Doing → Bool
  | awake | idle | laying => true
  | _ => false

def isLocking : Doing → Bool
  | ringing | settling | listening | checking | resolved | rising | tolling | parting => true
  | _ => false

/-- The thread is on its way to wake somebody for a job that is in a queue already. -/
def isCalling : Doing → Bool
  | looking | reaching | ringing => true
  | _ => false

def rouse : Doing → Doing
  | asleep => stirring
  | doing => doing

/-- What a thread goes on to after a step at the queues. Nobody is woken for the release of a token
that had no jobs left. -/
def next (old new : Party Work) (doing : Doing) : Doing :=
  if new.duty = old.duty then
    match old.hand, new.hand with
    | .counted .., _ => looking
    | .moving .., _ => laying
    | .emptying (_ :: _), _ => doing
    | .emptying [], _ => if doing = laying then looking else awake
    | .scanning [], .free => idle
    | _, _ => awake
  else shutting

end Doing

/-- A thread as its sleep is concerned. -/
structure Post where
  doing : Doing := .awake
  /-- The number of jobs that it runs, one inside the other. -/
  jobs : Nat := 0
  deriving Repr, DecidableEq

namespace Post

/-- The post of a thread after a step at the queues. A thread that was handed a job runs it. -/
def next (old new : Party Work) (post : Post) : Post where
  doing := post.doing.next old new
  jobs := match old.hand with
    | .drawn .. => post.jobs + 1
    | _ => post.jobs

end Post

/-- A worker that runs no job does nothing but look for one, or stop. -/
def Party.Fits (jobs : Nat) (old new : Party Work) : Prop :=
  old.duty = .worker → old.hand = .free →
    if jobs = 0 then new.hand = .asking ∨ new.hand = .stopped else new.hand ≠ .stopped

/-- The thread of a number is the one that takes a step. -/
structure SharedPool.Acts (s s' : SharedPool Work) (i : Nat) (old new : Party Work) : Prop where
  was : s.threads[i]? = some old
  becomes : s'.threads = s.threads.set i new
  /-- Only a step that begins and ends with a free hand leaves a thread as it was. -/
  moved : old = new → old.hand = .free

/-- A pool, the threads that use it, and who of them sleeps. The pool has the count of sleepers. -/
structure SleepWake (Work : Type) where
  shared : SharedPool Work
  /-- The posts of the threads, in the same order. -/
  posts : List Post
  /-- The closing thread has roused all who wait. -/
  announced : Bool := false
  deriving Repr

namespace SleepWake

def start (config : PoolConfig) (guests : Nat) : SleepWake Work where
  shared := .start config guests
  posts := List.replicate (config.workers + guests) {}

def turn (i : Nat) (post : Post) (s : SleepWake Work) : SleepWake Work :=
  { s with posts := s.posts.set i post }

def sleepers (count : Nat → Nat) (s : SleepWake Work) : SleepWake Work :=
  { s with
    shared := { s.shared with
      pool := { s.shared.pool with asleep := count s.shared.pool.asleep } } }

def rouseAll (s : SleepWake Work) : SleepWake Work :=
  { s with
    posts := s.posts.map fun post => { post with doing := post.doing.rouse }
    announced := true }

def IsUnlocked (s : SleepWake Work) : Prop := ∀ post ∈ s.posts, post.doing.isLocking = false

/-- No submission, no waking and no release of a token is in progress. -/
def IsQuiet (s : SleepWake Work) : Prop :=
  (∀ thread ∈ s.shared.threads, thread.hand.isBorrowing = false) ∧
    ∀ post ∈ s.posts, post.doing.isCalling = false

/-- The indivisible steps. -/
inductive Step (s : SleepWake Work) : SleepWake Work → Prop where
  /-- A thread goes on at the queues. Who closes the pool has it alone. -/
  | works {i old new post shared} (step : s.shared.Step shared)
      (acts : s.shared.Acts shared i old new) (thread : s.posts[i]? = some post)
      (up : post.doing.isUp = true) (fits : old.Fits post.jobs new)
      (alone : new.duty ≠ old.duty → s.IsQuiet) :
      Step s { s with shared, posts := s.posts.set i (post.next old new) }
  /-- The innermost job of a thread ends. -/
  | ends {i duty doing jobs} (party : s.shared.threads[i]? = some ⟨duty, .free⟩)
      (thread : s.posts[i]? = some ⟨doing, jobs + 1⟩) (up : doing.isUp = true) :
      Step s (s.turn i ⟨.awake, jobs⟩)
  | looks {i jobs} (thread : s.posts[i]? = some ⟨.looking, jobs⟩) :
      Step s (s.turn i ⟨if s.shared.pool.asleep = 0 then .awake else .reaching, jobs⟩)
  | reaches {i jobs} (thread : s.posts[i]? = some ⟨.reaching, jobs⟩) (unlocked : s.IsUnlocked) :
      Step s (s.turn i ⟨.ringing, jobs⟩)
  | rings {i jobs j jobs'} (thread : s.posts[i]? = some ⟨.ringing, jobs⟩)
      (sleeper : s.posts[j]? = some ⟨.asleep, jobs'⟩) :
      Step s ((s.turn i ⟨.parting, jobs⟩).turn j ⟨.stirring, jobs'⟩)
  | ringsInVain {i jobs} (thread : s.posts[i]? = some ⟨.ringing, jobs⟩)
      (nobody : ∀ post ∈ s.posts, post.doing ≠ .asleep) :
      Step s (s.turn i ⟨.parting, jobs⟩)
  /-- A worker that runs no job, and found none, goes to sleep. -/
  | tires {i} (party : s.shared.threads[i]? = some ⟨.worker, .free⟩)
      (thread : s.posts[i]? = some ⟨.idle, 0⟩) : Step s (s.turn i ⟨.drowsy, 0⟩)
  | retires {i jobs} (thread : s.posts[i]? = some ⟨.drowsy, jobs⟩) (unlocked : s.IsUnlocked) :
      Step s (s.turn i ⟨.settling, jobs⟩)
  | settles {i jobs} (thread : s.posts[i]? = some ⟨.settling, jobs⟩) :
      Step s ((s.sleepers (· + 1)).turn i ⟨.listening, jobs⟩)
  | listens {i jobs} (thread : s.posts[i]? = some ⟨.listening, jobs⟩) :
      Step s (s.turn i ⟨if s.shared.pool.queued = 0 then .checking else .rising, jobs⟩)
  | checks {i jobs} (thread : s.posts[i]? = some ⟨.checking, jobs⟩) :
      Step s (s.turn i ⟨if s.shared.pool.stage = .live then .resolved else .rising, jobs⟩)
  | waits {i jobs} (thread : s.posts[i]? = some ⟨.resolved, jobs⟩) :
      Step s (s.turn i ⟨.asleep, jobs⟩)
  /-- It has waited for long enough. -/
  | stirs {i jobs} (thread : s.posts[i]? = some ⟨.asleep, jobs⟩) :
      Step s (s.turn i ⟨.stirring, jobs⟩)
  | returns {i jobs} (thread : s.posts[i]? = some ⟨.stirring, jobs⟩) (unlocked : s.IsUnlocked) :
      Step s (s.turn i ⟨.rising, jobs⟩)
  | rises {i jobs} (thread : s.posts[i]? = some ⟨.rising, jobs⟩) :
      Step s ((s.sleepers (· - 1)).turn i ⟨.parting, jobs⟩)
  | shuts {i jobs} (thread : s.posts[i]? = some ⟨.shutting, jobs⟩) (unlocked : s.IsUnlocked) :
      Step s (s.turn i ⟨.tolling, jobs⟩)
  | tolls {i jobs} (thread : s.posts[i]? = some ⟨.tolling, jobs⟩) :
      Step s (s.rouseAll.turn i ⟨.parting, jobs⟩)
  | parts {i jobs} (thread : s.posts[i]? = some ⟨.parting, jobs⟩) :
      Step s (s.turn i ⟨.awake, jobs⟩)

inductive Reaches (s : SleepWake Work) : SleepWake Work → Prop where
  | refl : Reaches s s
  | step {s' s''} (reaches : Reaches s s') (step : Step s' s'') : Reaches s s''

def Reachable (config : PoolConfig) (guests : Nat) (s : SleepWake Work) : Prop :=
  (start config guests).Reaches s

end SleepWake

end TaskPool
