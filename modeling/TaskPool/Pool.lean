import TaskPool.Job
import TaskPool.LoadLimit

/-!
# Pools

A pool holds jobs in a shared queue and in lanes, one lane for each producer token, in the order in
which the tokens were made. A job enters at the end of the shared queue or of one lane. Taking a job
without naming a lane looks into the shared queue first and then into the lanes in order, so it
takes the head of `Pool.contents`, the list of all jobs in that order.

A pool also keeps a running count of its queued jobs. The count goes up before a job enters and down
when a job is taken, and it does not change when a lane is dissolved into the shared queue.

`Pool` is `PoolShared`, with the numbers that `ThreadPool` keeps beside it. `push`, `pop` and
`popLane` are `push`, `pop_any` and `pop_from`; `isSaturated` is `overloaded`.
-/

namespace TaskPool

variable {Work : Type}

/-- Where a job enters a pool. -/
inductive Inlet where
  | shared
  | lane (token : TokenId)
  deriving Repr, DecidableEq

/-- The jobs that were submitted through one token and have not been taken. -/
structure Lane (Work : Type) where
  token : TokenId
  jobs : List (Job Work)
  deriving Repr

namespace Lane

def push (token : TokenId) (job : Job Work) (lanes : List (Lane Work)) : List (Lane Work) :=
  lanes.map fun lane =>
    if lane.token = token then { lane with jobs := lane.jobs ++ [job] } else lane

/-- Takes the oldest job of the first lane that has one. -/
def takeFirst : List (Lane Work) → Option (Job Work × List (Lane Work))
  | [] => none
  | lane :: rest =>
    match lane.jobs with
    | job :: jobs => some (job, { lane with jobs } :: rest)
    | [] => (takeFirst rest).map fun (job, rest) => (job, lane :: rest)

def takeFrom (token : TokenId) : List (Lane Work) → Option (Job Work × List (Lane Work))
  | [] => none
  | lane :: rest =>
    if lane.token = token then
      match lane.jobs with
      | job :: jobs => some (job, { lane with jobs } :: rest)
      | [] => none
    else
      (takeFrom token rest).map fun (job, rest) => (job, lane :: rest)

def contents (lanes : List (Lane Work)) : List (Job Work) := lanes.flatMap (·.jobs)

@[simp] theorem contents_nil : contents ([] : List (Lane Work)) = [] := rfl

@[simp] theorem contents_cons (lane : Lane Work) (rest : List (Lane Work)) :
    contents (lane :: rest) = lane.jobs ++ contents rest := rfl

/-- Without a lane of its own a token adds nothing. -/
theorem push_eq_self {token : TokenId} {lanes : List (Lane Work)} (job : Job Work)
    (absent : ∀ lane ∈ lanes, lane.token ≠ token) : push token job lanes = lanes := by
  unfold push
  conv => rhs; rw [← List.map_id lanes]
  exact List.map_congr_left fun lane member => by simp [absent lane member]

/-- The first job in the order of the lanes is the one that is taken, and the others stay in
order. -/
theorem takeFirst_contents (lanes : List (Lane Work)) :
    (takeFirst lanes).map (fun taken => (taken.1, contents taken.2)) =
      match contents lanes with
      | [] => none
      | job :: jobs => some (job, jobs) := by
  induction lanes with
  | nil => rfl
  | cons lane rest ih =>
    cases h : lane.jobs with
    | cons job jobs => simp [takeFirst, h]
    | nil =>
      simp only [takeFirst, h, contents_cons, List.nil_append, Option.map_map, ← ih]
      congr 1
      funext taken
      simp [h]

/-- Taking jobs keeps every lane where it is. -/
theorem takeFirst_tokens {lanes rest : List (Lane Work)} {job : Job Work}
    (taken : takeFirst lanes = some (job, rest)) :
    rest.map (·.token) = lanes.map (·.token) := by
  induction lanes generalizing rest with
  | nil => simp [takeFirst] at taken
  | cons lane tail ih =>
    cases h : lane.jobs with
    | cons first jobs =>
      simp only [takeFirst, h, Option.some.injEq, Prod.mk.injEq] at taken
      simp [← taken.2]
    | nil =>
      simp only [takeFirst, h, Option.map_eq_some_iff, Prod.mk.injEq] at taken
      obtain ⟨⟨_, tail'⟩, found, rfl, rfl⟩ := taken
      simp [ih found]

end Lane

/-- A pool: its jobs, its count of queued jobs, and what decides whether it is saturated. -/
structure Pool (Work : Type) where
  name : String
  /-- The number of worker threads that could be started. -/
  workers : Nat
  /-- How many queued jobs per worker the pool takes before it is saturated. -/
  multiplier : Nat
  shared : List (Job Work) := []
  lanes : List (Lane Work) := []
  queued : Nat := 0
  /-- Workers that found nothing to do and sleep. -/
  asleep : Nat := 0
  /-- Workers that have not stopped yet. -/
  working : Nat := 0
  stage : Stage := .live
  deriving Repr

/-- What a pool is started with. -/
structure PoolConfig where
  /-- The name of the pool, which also names its threads. -/
  name : String := "taskset-pool"
  /-- The number of worker threads to start; without workers, jobs run only on threads that ask for
  them. -/
  workers : Nat
  /-- How many queued jobs per worker the pool takes before it is saturated. -/
  multiplier : Nat := 32
  /-- How long an idle worker sleeps before it looks for jobs on its own, in milliseconds. -/
  idleMs : Nat := 1
  deriving Repr

/-- The configuration for a machine with `cores` processors: one worker each, and at least one. -/
def PoolConfig.standard (cores : Nat) : PoolConfig := { workers := max cores 1 }

/-- The workers whose threads can be started: a worker goes without one if there is a reason. -/
def PoolConfig.started (reasons : Nat → Option String) (config : PoolConfig) : List Nat :=
  (List.range config.workers).filter fun index => (reasons index).isNone

@[simp] theorem PoolConfig.started_none (config : PoolConfig) :
    config.started (fun _ => none) = List.range config.workers := by
  simp [started]

namespace Pool

/-- A pool with no jobs, whose workers are all awake. -/
def start (workers : Nat) (config : PoolConfig) : Pool Work where
  name := config.name
  workers := workers
  multiplier := config.multiplier
  working := workers

/-- A number that was never given names an empty pool that was closed long ago. -/
instance : Inhabited (Pool Work) := ⟨{ start 0 { workers := 0 } with stage := .closed }⟩

/-- The number of queued jobs that the pool takes before it is saturated. -/
def limit (p : Pool Work) : Nat := loadLimit p.multiplier p.workers

/-- No worker is asleep, and more jobs are queued than the limit allows. -/
def isSaturated (p : Pool Work) : Bool := p.asleep == 0 && p.limit < p.queued

def contents (p : Pool Work) : List (Job Work) := p.shared ++ Lane.contents p.lanes

def push (inlet : Inlet) (job : Job Work) (p : Pool Work) : Pool Work :=
  match inlet with
  | .shared => { p with queued := p.queued + 1, shared := p.shared ++ [job] }
  | .lane token => { p with queued := p.queued + 1, lanes := Lane.push token job p.lanes }

/-- Takes the next job: from the shared queue, else from the first lane that has one. -/
def pop (p : Pool Work) : Option (Job Work × Pool Work) :=
  match p.shared with
  | job :: shared => some (job, { p with shared, queued := p.queued - 1 })
  | [] => (Lane.takeFirst p.lanes).map fun (job, lanes) =>
      (job, { p with lanes, queued := p.queued - 1 })

def popLane (token : TokenId) (p : Pool Work) : Option (Job Work × Pool Work) :=
  (Lane.takeFrom token p.lanes).map fun (job, lanes) =>
    (job, { p with lanes, queued := p.queued - 1 })

def register (token : TokenId) (p : Pool Work) : Pool Work :=
  { p with lanes := p.lanes ++ [⟨token, []⟩] }

def waitingIn (token : TokenId) (p : Pool Work) : List (Job Work) :=
  Lane.contents (p.lanes.filter (·.token = token))

/-- Dissolves the lane of a token: its jobs go to the end of the shared queue and stay counted. -/
def release (token : TokenId) (p : Pool Work) : Pool Work :=
  { p with
    shared := p.shared ++ p.waitingIn token
    lanes := p.lanes.filter (·.token ≠ token) }

/-- The next job is the head of the contents, and the rest stays in order. -/
theorem pop_contents (p : Pool Work) :
    p.pop.map (fun taken => (taken.1, taken.2.contents)) =
      match p.contents with
      | [] => none
      | job :: jobs => some (job, jobs) := by
  cases h : p.shared with
  | cons job jobs => simp [pop, contents, h]
  | nil =>
    simp only [pop, contents, h, List.nil_append, Option.map_map]
    rw [← Lane.takeFirst_contents]
    congr 1

/-- A pool has a next job exactly when it holds any. -/
theorem pop_eq_none_iff (p : Pool Work) : p.pop = none ↔ p.contents = [] := by
  have key := p.pop_contents
  cases h : p.contents with
  | nil => simp only [h, Option.map_eq_none_iff] at key; simp [key]
  | cons job jobs =>
    simp only [h, Option.map_eq_some_iff] at key
    obtain ⟨taken, found, _⟩ := key
    simp [found]

/-- A job that enters the shared queue stands behind those in it and before those in the lanes. -/
theorem contents_push_shared (job : Job Work) (p : Pool Work) :
    (p.push .shared job).contents = p.shared ++ job :: Lane.contents p.lanes := by
  simp [push, contents]

/-- Whatever the inlet, one more job is counted. -/
@[simp] theorem queued_push (inlet : Inlet) (job : Job Work) (p : Pool Work) :
    (p.push inlet job).queued = p.queued + 1 := by
  cases inlet <;> rfl

/-- Dissolving a lane leaves the count alone. -/
@[simp] theorem queued_release (token : TokenId) (p : Pool Work) :
    (p.release token).queued = p.queued := rfl

/-- After its release a token has no lane, and the other lanes are as they were. -/
@[simp] theorem lanes_release (token : TokenId) (p : Pool Work) :
    (p.release token).lanes = p.lanes.filter (·.token ≠ token) := rfl

/-- Registering a token adds no jobs. -/
@[simp] theorem contents_register (token : TokenId) (p : Pool Work) :
    (p.register token).contents = p.contents := by
  simp [register, contents, Lane.contents]

end Pool

end TaskPool
