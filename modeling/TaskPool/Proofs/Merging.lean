import Mathlib.Data.Nat.Count
import TaskPool.Proofs.BatchLine

/-!
# The other kind of batch

A batch with a single producer keeps its jobs in a lane, a batch with many producers in the shared
queue. A script is rewritten so that the batches on the pools of one name are of the second kind,
and `Merging` says what becomes of everything else: the lanes of these home pools are merged into
their shared queues, and their tokens are gone, so the tokens of other pools get other numbers.

Here is what the rewriting does to queues. A pool gives its jobs in the order of `Pool.contents`,
and for a home pool that is all that remains of its lanes.
-/

namespace TaskPool

open TaskPool.System

/-! ## Rewriting a script -/

/-- Whether a batch that is made on a pool still has a single producer. -/
def singleAsMulti (pool : String) (on : Arg String) (single : Arg Bool) : Arg Bool :=
  match on, single with
  | .given name, .given single => .given (single && name != pool)
  | _, single => single

mutual

/-- The operation, with many producers for every batch that it makes on the pool of a name. -/
def Op.asMulti (pool : String) : Op → Op
  | .catching op => .catching (op.asMulti pool)
  | .batch id on multiplier single => .batch id on multiplier (singleAsMulti pool on single)
  | .schedule on task via token => .schedule on (argAsMulti pool task) via token
  | .producers threads => .producers (threadsAsMulti pool threads)
  | op => op

def argAsMulti (pool : String) : Arg (TaskSource Op) → Arg (TaskSource Op)
  | .given task => .given (task.asMulti pool)
  | arg => arg

def TaskSource.asMulti (pool : String) : TaskSource Op → TaskSource Op
  | .own label body => .own label (opsAsMulti pool body)
  | task => task

def opsAsMulti (pool : String) : List Op → List Op
  | [] => []
  | op :: rest => op.asMulti pool :: opsAsMulti pool rest

def threadsAsMulti (pool : String) : Arg (List (List Op)) → Arg (List (List Op))
  | .given scripts => .given (scriptsAsMulti pool scripts)
  | arg => arg

def scriptsAsMulti (pool : String) : List (List Op) → List (List Op)
  | [] => []
  | ops :: rest => opsAsMulti pool ops :: scriptsAsMulti pool rest

end

def bodiesAsMulti (pool : String) (bodies : Table (List Op)) : Table (List Op) :=
  bodies.map fun (name, ops) => (name, opsAsMulti pool ops)

/-! ## Keeping some entries of a list -/

/-- The entries at the places that are kept. -/
def keep {α : Type} (kept : Nat → Bool) : List α → List α
  | [] => []
  | a :: rest => (if kept 0 then [a] else []) ++ keep (fun i => kept (i + 1)) rest

section

variable {α : Type} {kept : Nat → Bool} {entries : List α} {n : Nat}

theorem length_keep : (keep kept entries).length = Nat.count (kept · = true) entries.length := by
  induction entries generalizing kept with
  | nil => rfl
  | cons a rest ih =>
      rw [keep, List.length_append, ih, List.length_cons, Nat.count_succ', Nat.add_comm]
      cases kept 0 <;> rfl

theorem keep_append_singleton (a : α) :
    keep kept (entries ++ [a]) =
      keep kept entries ++ if kept entries.length then [a] else [] := by
  induction entries generalizing kept with
  | nil => simp [keep]
  | cons b rest ih => simp [keep, ih]

/-- An entry that is kept is found behind those before it that are kept too. -/
theorem getElem?_keep (here : kept n = true) :
    (keep kept entries)[Nat.count (kept · = true) n]? = entries[n]? := by
  induction entries generalizing kept n with
  | nil => simp [keep]
  | cons a rest ih =>
      cases n with
      | zero => simp [keep, here]
      | succ n =>
          have later : (keep (fun i => kept (i + 1)) rest)[Nat.count (kept <| · + 1) n]? = rest[n]? :=
            ih here
          rw [keep, Nat.count_succ', List.getElem?_cons_succ, ← later]
          cases kept 0 <;> simp

theorem keep_modify_of_kept (here : kept n = true) (f : α → α) :
    keep kept (entries.modify n f) =
      (keep kept entries).modify (Nat.count (kept · = true) n) f := by
  induction entries generalizing kept n with
  | nil => simp [keep]
  | cons a rest ih =>
      cases n with
      | zero => simp [keep, here]
      | succ n =>
          have later : keep (fun i => kept (i + 1)) (rest.modify n f) =
              (keep (fun i => kept (i + 1)) rest).modify (Nat.count (kept <| · + 1) n) f := ih here
          rw [List.modify_succ_cons, keep, keep, later, Nat.count_succ']
          cases kept 0 <;> simp

theorem keep_modify_of_gone (gone : kept n = false) (f : α → α) :
    keep kept (entries.modify n f) = keep kept entries := by
  induction entries generalizing kept n with
  | nil => simp [keep]
  | cons a rest ih =>
      cases n with
      | zero => simp [keep, gone]
      | succ n =>
          have later : keep (fun i => kept (i + 1)) (rest.modify n f) =
              keep (fun i => kept (i + 1)) rest := ih gone
          rw [List.modify_succ_cons, keep, keep, later]

theorem any_keep (wanted : α → Bool)
    (gone : ∀ i a, entries[i]? = some a → kept i = false → wanted a = false) :
    (keep kept entries).any wanted = entries.any wanted := by
  induction entries generalizing kept with
  | nil => rfl
  | cons a rest ih =>
      have later : (keep (fun i => kept (i + 1)) rest).any wanted = rest.any wanted :=
        ih fun i b found => gone (i + 1) b (by rw [List.getElem?_cons_succ, found])
      rw [keep, List.any_append, later, List.any_cons]
      cases here : kept 0 with
      | true => simp
      | false =>
          rw [gone 0 a rfl here]
          rfl

end

/-! ## Pools whose jobs wait in one place -/

namespace Pool

variable {p : Pool Work} {inlet : Inlet} {job : Job Work} {t : TokenId}

def OnlyAt (inlet : Inlet) (p : Pool Work) : Prop := ∀ other, other ≠ inlet → p.queue other = []

theorem jobs_of_waitingIn (empty : p.queue (.lane t) = []) {lane : Lane Work}
    (member : lane ∈ p.lanes) (same : lane.token = t) : lane.jobs = [] := by
  simp only [queue, waitingIn, Lane.contents, List.flatMap_eq_nil_iff] at empty
  exact empty lane (List.mem_filter.mpr ⟨member, by simp [same]⟩)

theorem contents_filter {lanes : List (Lane Work)}
    (others : ∀ lane ∈ lanes, lane.token ≠ t → lane.jobs = []) :
    Lane.contents (lanes.filter (·.token = t)) = Lane.contents lanes := by
  induction lanes with
  | nil => rfl
  | cons lane rest ih =>
      have later := ih fun lane member => others lane (List.mem_cons_of_mem _ member)
      by_cases same : lane.token = t
      · simp [same, later]
      · simp [same, later, others lane List.mem_cons_self same]

theorem OnlyAt.contents (only : p.OnlyAt inlet) : p.contents = p.queue inlet := by
  cases inlet with
  | shared =>
      have empty : Lane.contents p.lanes = [] := by
        rw [Lane.contents, List.flatMap_eq_nil_iff]
        exact fun lane member => jobs_of_waitingIn (only (.lane lane.token) (by simp)) member rfl
      rw [Pool.contents, empty, List.append_nil]
      rfl
  | lane t =>
      have empty : p.shared = [] := only .shared (by simp)
      rw [Pool.contents, empty, List.nil_append]
      refine (contents_filter fun lane member other => ?_).symm
      exact jobs_of_waitingIn (only (.lane lane.token) (by simpa using other)) member rfl

theorem OnlyAt.push (only : p.OnlyAt inlet)
    (once : ∀ t, inlet = .lane t → (p.lanes.map (·.token)).count t = 1) (job : Job Work) :
    (p.push inlet job).contents = p.contents ++ [job] := by
  have queue := queue_push job once
  have only' : (p.push inlet job).OnlyAt inlet := by
    intro other apart
    rw [queue, only other apart, if_neg apart]
    rfl
  rw [only'.contents, only.contents, queue, if_pos rfl]

/-- To look into a lane first makes no difference when no job waits outside of it. -/
theorem OnlyAt.popLane (only : p.OnlyAt (.lane t)) (once : (p.lanes.map (·.token)).Nodup) :
    p.popLane t = p.pop := by
  have empty : p.shared = [] := only .shared (by simp)
  have others : ∀ lane ∈ p.lanes, lane.token ≠ t → lane.jobs = [] := fun lane member other =>
    jobs_of_waitingIn (only (.lane lane.token) (by simpa using other)) member rfl
  have first : ∀ lanes : List (Lane Work), (∀ lane ∈ lanes, lane.token ≠ t → lane.jobs = []) →
      (lanes.map (·.token)).Nodup → Lane.takeFrom t lanes = Lane.takeFirst lanes := by
    intro lanes others once
    induction lanes with
    | nil => rfl
    | cons lane rest ih =>
        obtain ⟨apart, once'⟩ := List.nodup_cons.mp once
        have others' : ∀ lane ∈ rest, lane.token ≠ t → lane.jobs = [] :=
          fun lane member => others lane (List.mem_cons_of_mem _ member)
        by_cases same : lane.token = t
        · cases front : lane.jobs with
          | cons => simp [Lane.takeFrom, Lane.takeFirst, same, front]
          | nil =>
              -- the other lanes are those of other tokens
              have none : Lane.takeFirst rest = none := by
                have next := Lane.takeFirst_contents rest
                have empty : Lane.contents rest = [] := by
                  rw [Lane.contents, List.flatMap_eq_nil_iff]
                  intro other member
                  refine others' other member fun equal => apart ?_
                  exact List.mem_map.mpr ⟨other, member, equal.trans same.symm⟩
                rw [empty] at next
                exact Option.map_eq_none_iff.mp next
              simp [Lane.takeFrom, Lane.takeFirst, same, front, none]
        · have front := others lane List.mem_cons_self same
          simp [Lane.takeFrom, Lane.takeFirst, same, front, ih others' once']
  simp only [Pool.popLane, Pool.pop, empty, first p.lanes others once]

theorem contents_release (empty : p.queue (.lane t) = []) : (p.release t).contents = p.contents := by
  have rest : Lane.contents (p.lanes.filter (·.token ≠ t)) = Lane.contents p.lanes := by
    have waiting : ∀ lane ∈ p.lanes, lane.token = t → lane.jobs = [] :=
      fun lane member same => jobs_of_waitingIn empty member same
    revert waiting
    induction p.lanes with
    | nil => exact fun _ => rfl
    | cons lane rest ih =>
        intro waiting
        have later := ih fun lane member => waiting lane (List.mem_cons_of_mem _ member)
        by_cases same : lane.token = t
        · rw [List.filter_cons_of_neg (by simp [same]), later, Lane.contents_cons,
            waiting lane List.mem_cons_self same, List.nil_append]
        · rw [List.filter_cons_of_pos (by simp [same]), Lane.contents_cons, Lane.contents_cons,
            later]
  rw [Pool.contents, lanes_release, rest, release, show p.waitingIn t = [] from empty]
  simp [Pool.contents]

end Pool

/-! ## What becomes of everything -/

/-- A name, the pools that go by it, and which tokens they issue. -/
structure Merging where
  name : String
  home : PoolId → Bool
  own : TokenId → Bool

namespace Merging

variable (μ : Merging)

/-- The number of a token of another pool, when the own ones are not counted. -/
def token (t : TokenId) : TokenId := ⟨Nat.count (fun i => (!μ.own ⟨i⟩) = true) t.index⟩

def work : Work → Work
  | .body label ops onBatch => .body label (opsAsMulti μ.name ops) onBatch
  | .park gate => .park gate

def job (job : Job Work) : Job Work := { job with work := μ.work job.work }

def lane (lane : Lane Work) : Lane Work where
  token := μ.token lane.token
  jobs := lane.jobs.map μ.job

/-- The lanes of own tokens go into the shared queue. -/
def pool (p : Pool Work) : Pool Work :=
  { p with
    shared := (p.shared ++ Lane.contents (p.lanes.filter (μ.own ·.token))).map μ.job
    lanes := (p.lanes.filter (!μ.own ·.token)).map μ.lane }

def kind : BatchKind → BatchKind
  | .single t => if μ.own t then .multi else .single (μ.token t)
  | .multi => .multi

def batch (batch : Batch) : Batch := { batch with kind := μ.kind batch.kind }

def system (s : System Work) : System Work where
  pools := s.pools.map μ.pool
  tokens := keep (fun i => !μ.own ⟨i⟩) s.tokens
  batches := s.batches.map μ.batch
  submissions := s.submissions

def inlet : Inlet → Inlet
  | .shared => .shared
  | .lane t => if μ.own t then .shared else .lane (μ.token t)

def source : Source → Source
  | .pool p => .pool p
  | .lane p t => if μ.own t then .pool p else .lane p (μ.token t)

def entry : Entry → Entry
  | .token receiver t forced => .token receiver (μ.token t) forced
  | entry => entry

def route : Route → Route
  | .queued p inlet => .queued p (μ.inlet inlet)
  | route => route

/-- The own tokens leave no trace in the log. -/
def notice : Notice → Option Notice
  | .tokenRegistered t name => if μ.own t then none else some (.tokenRegistered (μ.token t) name)
  | .tokenReleased t name moved =>
    if μ.own t then none else some (.tokenReleased (μ.token t) name moved)
  | .foreignToken t receiver issuer => some (.foreignToken (μ.token t) receiver issuer)
  | .batchClosed b name kind => some (.batchClosed b name (μ.kind kind))
  | .failureUnobserved b name kind failure =>
    some (.failureUnobserved b name (μ.kind kind) failure)
  | notice => some notice

def event : Event → Option Event
  | .submitted job batch route => some (.submitted job batch (μ.route route))
  | .logged notice => (μ.notice notice).map .logged
  | event => some event

def object : Object → Object
  | .token t => .token (μ.token t)
  | object => object

def loan (loan : Loan) : Loan := { loan with object := μ.object loan.object }

def world (w : World) : World :=
  { w with
    system := μ.system w.system
    bodies := bodiesAsMulti μ.name w.bodies
    names := w.names.map fun (name, object) => (name, μ.object object)
    loans := w.loans.map μ.loan }

def frame : Frame → Frame
  | .program rest => .program (opsAsMulti μ.name rest)
  | .strand rest replies => .strand (opsAsMulti μ.name rest) replies
  | .body job label next rest onBatch =>
    .body job label next (opsAsMulti μ.name rest) onBatch
  | .call loans onFailure caught => .call (loans.map μ.loan) onFailure caught
  | .sweep source batch count => .sweep (μ.source source) batch count
  | frame => frame

def thread (thread : Thread) : Thread := { thread with frames := thread.frames.map μ.frame }

def turn (turn : Turn) : Turn where
  world := μ.world turn.world
  events := turn.events.filterMap μ.event
  push := turn.push.map μ.frame
  signal := turn.signal
  spawn := turn.spawn.map μ.thread

def begun (begun : Begun) : Begun :=
  { μ.turn begun.toTurn with
    loans := begun.loans.map μ.loan
    onFailure := begun.onFailure }

def machine (m : Machine) : Machine where
  world := μ.world m.world
  driver := μ.thread m.driver
  others := m.others.map μ.thread
  journal := m.journal.filterMap fun record => (μ.event record.event).map (⟨record.thread, ·⟩)

/-! ## Queues -/

section

variable {μ} {p rest : Pool Work} {t u : TokenId} {inlet : Inlet}

theorem token_injective (other : μ.own t = false) (other' : μ.own u = false)
    (same : μ.token t = μ.token u) : t = u := by
  refine TokenId.ext (Nat.count_injective ?_ ?_ (congrArg TokenId.index same))
  · simpa using other
  · simpa using other'

@[simp] theorem ops_eq_map (name : String) (ops : List Op) :
    opsAsMulti name ops = ops.map (Op.asMulti name) := by
  induction ops with
  | nil => rfl
  | cons op rest ih => rw [opsAsMulti, ih, List.map_cons]

@[simp] theorem scripts_eq_map (name : String) (scripts : List (List Op)) :
    scriptsAsMulti name scripts = scripts.map (List.map (Op.asMulti name)) := by
  induction scripts with
  | nil => rfl
  | cons ops rest ih => rw [scriptsAsMulti, ih, List.map_cons, ops_eq_map]

def Home (μ : Merging) (p : Pool Work) : Prop := ∀ lane ∈ p.lanes, μ.own lane.token = true

def Other (μ : Merging) (p : Pool Work) : Prop := ∀ lane ∈ p.lanes, μ.own lane.token = false

theorem Home.pool (home : μ.Home p) :
    μ.pool p = { p with shared := p.contents.map μ.job, lanes := [] } := by
  have all : p.lanes.filter (μ.own ·.token) = p.lanes := List.filter_eq_self.mpr home
  have none : p.lanes.filter (!μ.own ·.token) = [] :=
    List.filter_eq_nil_iff.mpr fun lane member => by simp [home lane member]
  rw [Merging.pool, all, none]
  rfl

theorem Other.pool (other : μ.Other p) :
    μ.pool p = { p with shared := p.shared.map μ.job, lanes := p.lanes.map μ.lane } := by
  have none : p.lanes.filter (μ.own ·.token) = [] :=
    List.filter_eq_nil_iff.mpr fun lane member => by simp [other lane member]
  have all : p.lanes.filter (!μ.own ·.token) = p.lanes :=
    List.filter_eq_self.mpr fun lane member => by simp [other lane member]
  rw [Merging.pool, none, all, Lane.contents_nil, List.append_nil]

theorem Home.of_tokens (home : μ.Home p) (same : rest.lanes.map (·.token) = p.lanes.map (·.token)) :
    μ.Home rest := by
  intro lane member
  have inside : lane.token ∈ rest.lanes.map (·.token) := List.mem_map_of_mem member
  rw [same] at inside
  obtain ⟨lane', member', token⟩ := List.mem_map.mp inside
  exact token ▸ home lane' member'

theorem Other.of_tokens (other : μ.Other p)
    (same : rest.lanes.map (·.token) = p.lanes.map (·.token)) : μ.Other rest := by
  intro lane member
  have inside : lane.token ∈ rest.lanes.map (·.token) := List.mem_map_of_mem member
  rw [same] at inside
  obtain ⟨lane', member', token⟩ := List.mem_map.mp inside
  exact token ▸ other lane' member'

theorem Home.pop (home : μ.Home p) :
    (μ.pool p).pop = p.pop.map fun (job, rest) => (μ.job job, μ.pool rest) := by
  rw [home.pool]
  cases front : p.shared with
  | cons job shared =>
      have home' : μ.Home { p with shared, queued := p.queued - 1 } := home
      simp [Pool.pop, Pool.contents, front, home'.pool]
  | nil =>
      have next := Lane.takeFirst_contents p.lanes
      cases taken : Lane.takeFirst p.lanes with
      | none =>
          rw [taken] at next
          have empty : Lane.contents p.lanes = [] := by
            cases contents : Lane.contents p.lanes with
            | nil => rfl
            | cons => rw [contents] at next; cases next
          simp [Pool.pop, Pool.contents, front, taken, empty, Lane.takeFirst]
      | some result =>
          obtain ⟨job, lanes⟩ := result
          rw [taken] at next
          have split : Lane.contents p.lanes = job :: Lane.contents lanes := by
            cases contents : Lane.contents p.lanes with
            | nil => rw [contents] at next; cases next
            | cons => rw [contents] at next; cases next; rfl
          have home' : μ.Home { p with shared := [], lanes, queued := p.queued - 1 } :=
            home.of_tokens (Lane.takeFirst_tokens taken)
          simp [Pool.pop, Pool.contents, front, taken, split, home'.pool]

theorem takeFirst_map (lanes : List (Lane Work)) :
    Lane.takeFirst (lanes.map μ.lane) =
      (Lane.takeFirst lanes).map fun (job, lanes) => (μ.job job, lanes.map μ.lane) := by
  induction lanes with
  | nil => rfl
  | cons lane rest ih =>
      cases front : lane.jobs with
      | cons job jobs => simp [Lane.takeFirst, Merging.lane, front]
      | nil =>
          simp only [List.map_cons, Lane.takeFirst, Merging.lane, front, List.map_nil, ih,
            Option.map_map]
          congr 1
          funext taken
          simp [Merging.lane, front]

theorem takeFrom_map (other : μ.own t = false) (lanes : List (Lane Work))
    (others : ∀ lane ∈ lanes, μ.own lane.token = false) :
    Lane.takeFrom (μ.token t) (lanes.map μ.lane) =
      (Lane.takeFrom t lanes).map fun (job, lanes) => (μ.job job, lanes.map μ.lane) := by
  induction lanes with
  | nil => rfl
  | cons lane rest ih =>
      have later := ih fun lane member => others lane (List.mem_cons_of_mem _ member)
      by_cases same : lane.token = t
      · cases front : lane.jobs <;> simp [Lane.takeFrom, Merging.lane, same, front]
      · have apart : μ.token lane.token ≠ μ.token t := fun equal =>
          same (token_injective (others lane List.mem_cons_self) other equal)
        simp only [List.map_cons, Lane.takeFrom, Merging.lane, apart, same, if_false, Option.map_map]
        rw [later, Option.map_map]
        rfl

theorem Other.pop (other : μ.Other p) :
    (μ.pool p).pop = p.pop.map fun (job, rest) => (μ.job job, μ.pool rest) := by
  rw [other.pool]
  cases front : p.shared with
  | cons job shared =>
      have other' : μ.Other { p with shared, queued := p.queued - 1 } := other
      simp [Pool.pop, front, other'.pool]
  | nil =>
      simp only [Pool.pop, front, List.map_nil, takeFirst_map, Option.map_map]
      cases taken : Lane.takeFirst p.lanes with
      | none => rfl
      | some result =>
          obtain ⟨job, lanes⟩ := result
          have other' : μ.Other { p with shared := [], lanes, queued := p.queued - 1 } :=
            other.of_tokens (Lane.takeFirst_tokens taken)
          simp [other'.pool]

theorem Other.popLane (other : μ.Other p) (foreign : μ.own t = false) :
    (μ.pool p).popLane (μ.token t) =
      (p.popLane t).map fun (job, rest) => (μ.job job, μ.pool rest) := by
  rw [other.pool]
  simp only [Pool.popLane, takeFrom_map foreign p.lanes other, Option.map_map]
  cases taken : Lane.takeFrom t p.lanes with
  | none => rfl
  | some result =>
      obtain ⟨job, lanes⟩ := result
      have loses : p.Loses (.lane t) job { p with lanes, queued := p.queued - 1 } :=
        .lane (Lane.takeFrom_loses taken)
      simp [(other.of_tokens loses.tokens).pool]

theorem Other.push (other : μ.Other p) (foreign : ∀ t, inlet = .lane t → μ.own t = false)
    (job : Job Work) :
    μ.pool (p.push inlet job) = (μ.pool p).push (μ.inlet inlet) (μ.job job) := by
  have other' : μ.Other (p.push inlet job) := other.of_tokens (Pool.push_tokens ..)
  rw [other'.pool, other.pool]
  cases inlet with
  | shared => simp [Pool.push, Merging.inlet]
  | lane t =>
      have foreign := foreign t rfl
      simp only [Pool.push, Merging.inlet, foreign, Bool.false_eq_true, if_false, Pool.mk.injEq,
        true_and, and_true, Lane.push, List.map_map]
      refine List.map_congr_left fun lane member => ?_
      by_cases same : lane.token = t
      · simp [Merging.lane, same]
      · have apart : μ.token lane.token ≠ μ.token t := fun equal =>
          same (token_injective (other lane member) foreign equal)
        simp [Merging.lane, same, apart]

theorem Other.register (other : μ.Other p) (foreign : μ.own t = false) :
    μ.pool (p.register t) = (μ.pool p).register (μ.token t) := by
  have other' : μ.Other (p.register t) := by
    intro lane member
    rcases List.mem_append.mp member with old | new
    · exact other lane old
    · rw [List.mem_singleton.mp new]
      exact foreign
  rw [other'.pool, other.pool]
  simp [Pool.register, Merging.lane]

theorem Other.waitingIn (other : μ.Other p) (foreign : μ.own t = false) :
    (μ.pool p).waitingIn (μ.token t) = (p.waitingIn t).map μ.job ∧
      (μ.pool p).lanes.filter (·.token ≠ μ.token t) = (p.lanes.filter (·.token ≠ t)).map μ.lane := by
  have token : ∀ lane ∈ p.lanes, (μ.lane lane).token = μ.token t ↔ lane.token = t := by
    intro lane member
    refine ⟨token_injective (other lane member) foreign, fun same => ?_⟩
    rw [← same]
    rfl
  rw [other.pool]
  constructor
  · rw [Pool.waitingIn, Pool.waitingIn, List.filter_map, Lane.contents, Lane.contents,
      List.flatMap_map, List.map_flatMap]
    congr 1
    exact List.filter_congr fun lane member => by simp [token lane member]
  · rw [List.filter_map]
    congr 1
    exact List.filter_congr fun lane member => by simp [token lane member]

theorem Other.release (other : μ.Other p) (foreign : μ.own t = false) :
    μ.pool (p.release t) = (μ.pool p).release (μ.token t) := by
  have other' : μ.Other (p.release t) :=
    fun lane member => other lane (List.mem_of_mem_filter member)
  obtain ⟨waiting, lanes⟩ := other.waitingIn foreign
  rw [other'.pool, Pool.release, Pool.release, waiting, lanes, other.pool]
  simp

theorem Home.push (home : μ.Home p) (only : p.OnlyAt inlet)
    (once : ∀ t, inlet = .lane t → (p.lanes.map (·.token)).count t = 1) (job : Job Work) :
    μ.pool (p.push inlet job) = (μ.pool p).push .shared (μ.job job) := by
  have home' : μ.Home (p.push inlet job) := home.of_tokens (Pool.push_tokens ..)
  rw [home'.pool, only.push once, home.pool]
  cases inlet <;> simp [Pool.push]

theorem Home.register (home : μ.Home p) (own : μ.own t = true) :
    μ.pool (p.register t) = μ.pool p := by
  have home' : μ.Home (p.register t) := by
    intro lane member
    rcases List.mem_append.mp member with old | new
    · exact home lane old
    · rw [List.mem_singleton.mp new]
      exact own
  rw [home'.pool, home.pool, Pool.contents_register]
  rfl

theorem Home.release (home : μ.Home p) (empty : p.queue (.lane t) = []) :
    μ.pool (p.release t) = μ.pool p := by
  have home' : μ.Home (p.release t) := fun lane member => home lane (List.mem_of_mem_filter member)
  rw [home'.pool, home.pool, Pool.contents_release empty]
  rfl

end

end Merging

end TaskPool
