import TaskPool.Pool

/-!
# A pool under contention

Several threads use one pool: its workers, and guests that submit jobs, take jobs and hold tokens.
Every access to a cell of the pool is one indivisible step, and the steps of the threads come in any
order. To submit a job takes two steps, to count it and to file it. To take a job takes two steps in
the opposite order, to draw it from a queue and to discount it. A thread that names no lane looks
into the shared queue, then locks the list of lanes and looks into one lane after the other, and
holds the lock until it has discounted what it found. Nobody changes the list meanwhile.

A token is released in many steps. Its lane leaves the list first, and the queue that is left then
moves job by job to the shared queue, still counted.

Who closes a pool has it alone: all tokens are released, no guest is using it, and no job that is
still running can reach it. The workers may be about to take a job, and stop when they look next.
When all have stopped, the closing thread takes jobs until it finds none.

`SharedPool` is `PoolShared` as several threads see it: `push`, `pop_from`, `pop_any`, the creation
and the drop of a `ProducerToken`, the loop of a worker and the drop of `ThreadPool`.
-/

namespace TaskPool

variable {Work : Type}

/-! ## The pieces of submitting and taking -/

namespace Pool

/-- Counts a job that is about to enter. -/
def count (p : Pool Work) : Pool Work := { p with queued := p.queued + 1 }

/-- Appends a job that is counted already. -/
def file (inlet : Inlet) (job : Job Work) (p : Pool Work) : Pool Work :=
  match inlet with
  | .shared => { p with shared := p.shared ++ [job] }
  | .lane token => { p with lanes := Lane.push token job p.lanes }

/-- Takes the oldest job at an inlet. It stays counted. -/
def draw (inlet : Inlet) (p : Pool Work) : Option (Job Work × Pool Work) :=
  match inlet with
  | .shared =>
    match p.shared with
    | job :: shared => some (job, { p with shared })
    | [] => none
  | .lane token => (Lane.takeFrom token p.lanes).map fun (job, lanes) => (job, { p with lanes })

/-- Counts a job no longer that was drawn. -/
def discount (p : Pool Work) : Pool Work := { p with queued := p.queued - 1 }

/-- Takes the lane of a token off the list, with all its jobs. They stay counted. -/
def detach (token : TokenId) (p : Pool Work) : List (Job Work) × Pool Work :=
  (p.waitingIn token, { p with lanes := p.lanes.filter (·.token ≠ token) })

end Pool

/-! ## Threads -/

inductive Hand (Work : Type) where
  /-- Nothing of the pool: it runs a job or code of its own. -/
  | free
  /-- A job that is counted and not filed yet. -/
  | counted (inlet : Inlet) (job : Job Work)
  /-- It is about to look into the shared queue. -/
  | asking
  /-- It found the shared queue empty, and is about to lock the list of lanes. -/
  | turning
  /-- It has locked the list of lanes, and has these still to look into. -/
  | scanning (ahead : List TokenId)
  /-- A job that was drawn and is still counted, with the list of lanes locked or not. -/
  | drawn (job : Job Work) (locked : Bool)
  /-- The queue of a token that is being released. -/
  | emptying (left : List (Job Work))
  /-- One job of such a queue on its way to the shared queue. -/
  | moving (job : Job Work) (left : List (Job Work))
  /-- A worker that has left its loop. -/
  | stopped
  deriving Repr

namespace Hand

/-- The list of lanes is locked against changes. -/
def isReading : Hand Work → Bool
  | scanning _ | drawn _ true => true
  | _ => false

/-- The thread is using the pool in a way in which only somebody can who has access to it, unlike a
worker that looks for a job. -/
def isBorrowing : Hand Work → Bool
  | counted .. | emptying _ | moving .. => true
  | _ => false

/-- A job is about to be filed through a token. -/
def isUsing (token : TokenId) : Hand Work → Bool
  | counted (.lane t) _ => t = token
  | _ => false

end Hand

/-- What a thread is to the pool. -/
inductive Duty where
  | worker
  | guest
  /-- The thread that closes the pool. -/
  | closer
  deriving Repr, DecidableEq

structure Party (Work : Type) where
  duty : Duty
  hand : Hand Work := .free
  deriving Repr

/-! ## Steps -/

/-- A pool and the threads that use it. -/
structure SharedPool (Work : Type) where
  pool : Pool Work
  threads : List (Party Work)
  /-- The number of tokens so far, which is the number of the next token. -/
  issued : Nat := 0
  /-- The jobs that were submitted, in the order in which they were counted. -/
  accepted : List (Job Work) := []
  /-- The jobs that were handed out, each with the number of the thread that got it. -/
  handed : List (Nat × Job Work) := []
  deriving Repr

namespace SharedPool

def start (config : PoolConfig) (guests : Nat) : SharedPool Work where
  pool := .start config.workers config
  threads := List.replicate config.workers { duty := .worker } ++
    List.replicate guests { duty := .guest }

def turn (before : List (Party Work)) (duty : Duty) (hand : Hand Work)
    (after : List (Party Work)) (pool : Pool Work) (s : SharedPool Work) : SharedPool Work :=
  { s with pool, threads := before ++ ⟨duty, hand⟩ :: after }

def IsUnlocked (s : SharedPool Work) : Prop := ∀ thread ∈ s.threads, thread.hand.isReading = false

/-- The closing thread has to be the only one that can still reach the pool. -/
def IsLeft (threads : List (Party Work)) : Prop :=
  ∀ thread ∈ threads, match thread.duty with
    | .worker => thread.hand.isBorrowing = false
    | .guest | .closer => thread.hand = .free

/-- Who may take a job: as long as the pool is not closing anybody, and afterwards the closing
thread when it has seen all workers stop. -/
def MayAsk (duty : Duty) (s : SharedPool Work) : Prop :=
  s.pool.stage = .live ∨ duty = .closer ∧ s.pool.stage = .closing ∧ s.pool.working = 0

/-- The indivisible steps. -/
inductive Step (s : SharedPool Work) : SharedPool Work → Prop where
  /-- A job is accepted, and has a number of its own from then on. -/
  | counts {before duty after} (inlet : Inlet) (job : Job Work)
      (thread : s.threads = before ++ ⟨duty, .free⟩ :: after) (live : s.pool.stage = .live)
      (fresh : job.id.index = s.accepted.length)
      (listed : ∀ token, inlet = .lane token → token ∈ s.pool.lanes.map (·.token)) :
      Step s { s.turn before duty (.counted inlet job) after s.pool.count with
        accepted := s.accepted ++ [job] }
  | files {before duty inlet job after}
      (thread : s.threads = before ++ ⟨duty, .counted inlet job⟩ :: after) :
      Step s (s.turn before duty .free after (s.pool.file inlet job))
  | asks {before duty after} (thread : s.threads = before ++ ⟨duty, .free⟩ :: after)
      (may : s.MayAsk duty) :
      Step s (s.turn before duty .asking after s.pool)
  | draws {before duty after job rest} (thread : s.threads = before ++ ⟨duty, .asking⟩ :: after)
      (drawn : s.pool.draw .shared = some (job, rest)) :
      Step s (s.turn before duty (.drawn job false) after rest)
  | misses {before duty after} (thread : s.threads = before ++ ⟨duty, .asking⟩ :: after)
      (missed : s.pool.draw .shared = none) :
      Step s (s.turn before duty .turning after s.pool)
  | locks {before duty after} (thread : s.threads = before ++ ⟨duty, .turning⟩ :: after) :
      Step s (s.turn before duty (.scanning (s.pool.lanes.map (·.token))) after s.pool)
  | finds {before duty token ahead after job rest}
      (thread : s.threads = before ++ ⟨duty, .scanning (token :: ahead)⟩ :: after)
      (drawn : s.pool.draw (.lane token) = some (job, rest)) :
      Step s (s.turn before duty (.drawn job true) after rest)
  | passes {before duty token ahead after}
      (thread : s.threads = before ++ ⟨duty, .scanning (token :: ahead)⟩ :: after)
      (missed : s.pool.draw (.lane token) = none) :
      Step s (s.turn before duty (.scanning ahead) after s.pool)
  /-- There was nothing to take. That is the end of it, except for the closing thread. -/
  | leaves {before duty after} (thread : s.threads = before ++ ⟨duty, .scanning []⟩ :: after)
      (other : duty ≠ .closer) :
      Step s (s.turn before duty .free after s.pool)
  /-- A token gives the jobs of its own lane first, and without the lock. -/
  | prefers {before duty after job rest} (token : TokenId)
      (thread : s.threads = before ++ ⟨duty, .free⟩ :: after) (live : s.pool.stage = .live)
      (drawn : s.pool.draw (.lane token) = some (job, rest)) :
      Step s (s.turn before duty (.drawn job false) after rest)
  | discounts {before duty job locked after}
      (thread : s.threads = before ++ ⟨duty, .drawn job locked⟩ :: after) :
      Step s { s.turn before duty .free after s.pool.discount with
        handed := s.handed ++ [(before.length, job)] }
  | registers {before duty after} (thread : s.threads = before ++ ⟨duty, .free⟩ :: after)
      (live : s.pool.stage = .live) (unlocked : s.IsUnlocked) :
      Step s { s.turn before duty .free after (s.pool.register ⟨s.issued⟩) with
        issued := s.issued + 1 }
  /-- A token is released only when no submission through it is in progress. -/
  | unregisters {before duty after} (token : TokenId)
      (thread : s.threads = before ++ ⟨duty, .free⟩ :: after) (live : s.pool.stage = .live)
      (unlocked : s.IsUnlocked) (listed : token ∈ s.pool.lanes.map (·.token))
      (unused : ∀ thread ∈ s.threads, thread.hand.isUsing token = false) :
      Step s (s.turn before duty (.emptying (s.pool.detach token).1) after
        (s.pool.detach token).2)
  | lifts {before duty job left after}
      (thread : s.threads = before ++ ⟨duty, .emptying (job :: left)⟩ :: after) :
      Step s (s.turn before duty (.moving job left) after s.pool)
  | lays {before duty job left after}
      (thread : s.threads = before ++ ⟨duty, .moving job left⟩ :: after) :
      Step s (s.turn before duty (.emptying left) after (s.pool.file .shared job))
  | releases {before duty after} (thread : s.threads = before ++ ⟨duty, .emptying []⟩ :: after) :
      Step s (s.turn before duty .free after s.pool)
  | closes {before after} (thread : s.threads = before ++ ⟨.guest, .free⟩ :: after)
      (live : s.pool.stage = .live) (released : s.pool.lanes = []) (left : IsLeft s.threads) :
      Step s (s.turn before .closer .free after { s.pool with stage := .closing })
  /-- A worker looks whether the pool is closing before it takes the next job. -/
  | stops {before after} (thread : s.threads = before ++ ⟨.worker, .free⟩ :: after)
      (closing : s.pool.stage ≠ .live) :
      Step s (s.turn before .worker .stopped after
        { s.pool with working := s.pool.working - 1 })
  | ends {before after} (thread : s.threads = before ++ ⟨.closer, .scanning []⟩ :: after) :
      Step s (s.turn before .closer .free after { s.pool with stage := .closed })

inductive Reaches (s : SharedPool Work) : SharedPool Work → Prop where
  | refl : Reaches s s
  | step {s' s''} (reaches : Reaches s s') (step : Step s' s'') : Reaches s s''

def Reachable (config : PoolConfig) (guests : Nat) (s : SharedPool Work) : Prop :=
  (start config guests).Reaches s

end SharedPool

end TaskPool
