import TaskPool.Proofs.BatchLine
import TaskPool.Proofs.FixedAttributes
import TaskPool.Proofs.ScriptOperations
import TaskPool.Proofs.WaitProgress

/-!
# In which order a pool is drained

A script that runs one job of a pool after the other, until there is none, runs them in a fixed
order: first those in the lane of the token that is named, if any, then the shared queue, then the
other lanes in the order in which their tokens were made. Whatever the jobs do that leaves the pool
alone, the script is told once for each job that there was one, and then that there is none.
-/

namespace TaskPool

open TaskPool.System

/-! ## The order -/

namespace Lane

variable {lanes rest : List (Lane Work)} {t : TokenId} {job : Job Work}

theorem contents_of_takeFrom_none (none : takeFrom t lanes = .none)
    (once : (lanes.map (·.token)).Nodup) : contents (lanes.filter (·.token = t)) = [] := by
  induction lanes with
  | nil => rfl
  | cons lane tail ih =>
      obtain ⟨apart, once'⟩ := List.nodup_cons.mp once
      by_cases own : lane.token = t
      · have others : tail.filter (·.token = t) = [] := by
          simp only [List.filter_eq_nil_iff, decide_eq_true_eq]
          intro other member same
          exact apart (List.mem_map.mpr ⟨other, member, same.trans own.symm⟩)
        cases jobs : lane.jobs with
        | nil => simp [own, jobs, others]
        | cons first jobs' => simp [takeFrom, own, jobs] at none
      · simp only [takeFrom, own, if_false, Option.map_eq_none_iff] at none
        simpa [own] using ih none once'

theorem contents_of_takeFrom (taken : takeFrom t lanes = some (job, rest))
    (once : (lanes.map (·.token)).Nodup) :
    contents (lanes.filter (·.token = t)) = job :: contents (rest.filter (·.token = t)) ∧
      rest.filter (·.token ≠ t) = lanes.filter (·.token ≠ t) := by
  induction lanes generalizing rest with
  | nil => simp [takeFrom] at taken
  | cons lane tail ih =>
      obtain ⟨apart, once'⟩ := List.nodup_cons.mp once
      by_cases own : lane.token = t
      · cases jobs : lane.jobs with
        | nil => simp [takeFrom, own, jobs] at taken
        | cons first jobs' =>
            simp only [takeFrom, own, if_true, jobs, Option.some.injEq, Prod.mk.injEq] at taken
            obtain ⟨rfl, rfl⟩ := taken
            simp [own, jobs]
      · simp only [takeFrom, own, if_false, Option.map_eq_some_iff, Prod.mk.injEq] at taken
        obtain ⟨⟨_, tail'⟩, found, rfl, rfl⟩ := taken
        obtain ⟨front, others⟩ := ih found once'
        refine ⟨by simpa [own] using front, ?_⟩
        rw [List.filter_cons_of_pos (by simpa using own),
          List.filter_cons_of_pos (by simpa using own), others]

theorem contents_of_takeFirst (taken : takeFirst lanes = some (job, rest))
    (empty : contents (lanes.filter (·.token = t)) = []) :
    contents (rest.filter (·.token = t)) = [] ∧
      contents (lanes.filter (·.token ≠ t)) = job :: contents (rest.filter (·.token ≠ t)) := by
  induction lanes generalizing rest with
  | nil => simp [takeFirst] at taken
  | cons lane tail ih =>
      by_cases own : lane.token = t
      · simp only [own, decide_true, List.filter_cons_of_pos, contents_cons,
          List.append_eq_nil_iff] at empty
        simp only [takeFirst, empty.1, Option.map_eq_some_iff, Prod.mk.injEq] at taken
        obtain ⟨⟨_, tail'⟩, found, rfl, rfl⟩ := taken
        simpa [own, empty.1] using ih found empty.2
      · simp only [own, decide_false, Bool.false_eq_true, not_false_eq_true,
          List.filter_cons_of_neg] at empty
        cases jobs : lane.jobs with
        | cons first jobs' =>
            simp only [takeFirst, jobs, Option.some.injEq, Prod.mk.injEq] at taken
            obtain ⟨rfl, rfl⟩ := taken
            simpa [own, jobs] using empty
        | nil =>
            simp only [takeFirst, jobs, Option.map_eq_some_iff, Prod.mk.injEq] at taken
            obtain ⟨⟨_, tail'⟩, found, rfl, rfl⟩ := taken
            simpa [own, jobs] using ih found empty

theorem contents_filter (empty : contents lanes = []) (keep : Lane Work → Bool) :
    contents (lanes.filter keep) = [] := by
  simp only [contents, List.flatMap_eq_nil_iff] at empty ⊢
  exact fun lane member => empty lane (List.mem_filter.mp member).1

end Lane

namespace Pool

variable {p rest : Pool Work} {t : TokenId} {job : Job Work}

/-- The jobs of a pool in the order in which they are taken, when a lane is named or none. -/
def order (p : Pool Work) : Option TokenId → List (Job Work)
  | none => p.contents
  | some t => p.waitingIn t ++ (p.shared ++ Lane.contents (p.lanes.filter (·.token ≠ t)))

def next (p : Pool Work) : Option TokenId → Option (Job Work × Pool Work)
  | none => p.pop
  | some t => p.popLane t <|> p.pop

/-- Each job of the pool stands in the order once. -/
theorem order_perm (p : Pool Work) (first : Option TokenId) : (p.order first).Perm p.contents := by
  cases first with
  | none => exact .refl _
  | some t =>
      have lanes : (Lane.contents (p.lanes.filter (·.token = t)) ++
          Lane.contents (p.lanes.filter (·.token ≠ t))).Perm (Lane.contents p.lanes) := by
        have split :=
          List.filter_append_perm (fun lane : Lane Work => decide (lane.token = t)) p.lanes
        simpa [Lane.contents] using split.flatMap_right (·.jobs)
      refine (List.perm_append_comm_assoc ..).trans ?_
      exact lanes.append_left p.shared

theorem order_of_none {first : Option TokenId} (none : p.next first = .none)
    (once : (p.lanes.map (·.token)).Nodup) : p.order first = [] := by
  cases first with
  | none => exact p.pop_eq_none_iff.mp none
  | some t =>
      simp only [next, Option.orElse_eq_orElse, Option.orElse_eq_or, Option.or_eq_none_iff,
        popLane, Option.map_eq_none_iff, pop_eq_none_iff, contents,
        List.append_eq_nil_iff] at none
      obtain ⟨lane, shared, lanes⟩ := none
      simp only [order, waitingIn, Lane.contents_of_takeFrom_none lane once, shared,
        Lane.contents_filter lanes, List.append_nil]

/-- The job that is taken is the first in the order, and the others stay in order. -/
theorem order_of_next {first : Option TokenId} (taken : p.next first = some (job, rest))
    (once : (p.lanes.map (·.token)).Nodup) : p.order first = job :: rest.order first := by
  cases first with
  | none =>
      have front := p.pop_contents
      rw [show p.pop = some (job, rest) from taken] at front
      cases waiting : p.contents <;> rw [waiting] at front <;> cases front
      exact waiting
  | some t =>
      simp only [next, Option.orElse_eq_orElse, Option.orElse_eq_or, Option.or_eq_some_iff,
        popLane, Option.map_eq_some_iff, Prod.mk.injEq, Option.map_eq_none_iff] at taken
      rcases taken with ⟨⟨_, lanes⟩, found, rfl, rfl⟩ | ⟨lane, popped⟩
      · obtain ⟨front, others⟩ := Lane.contents_of_takeFrom found once
        simp only [order, waitingIn, front, others, List.cons_append]
      · have empty := Lane.contents_of_takeFrom_none lane once
        unfold pop at popped
        cases shared : p.shared with
        | cons head tail =>
            simp only [shared, Option.some.injEq, Prod.mk.injEq] at popped
            obtain ⟨rfl, rfl⟩ := popped
            simp only [order, waitingIn, empty, shared, List.nil_append, List.cons_append]
        | nil =>
            simp only [shared, Option.map_eq_some_iff, Prod.mk.injEq] at popped
            obtain ⟨⟨_, lanes⟩, found, rfl, rfl⟩ := popped
            obtain ⟨still, others⟩ := Lane.contents_of_takeFirst found empty
            simp only [order, waitingIn, empty, still, others, shared, List.nil_append]

theorem loses_of_next {first : Option TokenId} (taken : p.next first = some (job, rest)) :
    ∃ inlet, p.Loses inlet job rest := by
  cases first with
  | none => exact loses_of_pop taken
  | some t =>
      simp only [next, Option.orElse_eq_orElse, Option.orElse_eq_or, Option.or_eq_some_iff] at taken
      rcases taken with named | ⟨_, popped⟩
      · exact ⟨_, loses_of_popLane named⟩
      · exact loses_of_pop popped

/-- Which jobs wait in a pool, queue by queue. -/
def roster (p : Pool Work) : List JobId × List (TokenId × List JobId) :=
  (p.shared.map (·.id), p.lanes.map fun lane => (lane.token, lane.jobs.map (·.id)))

theorem ids_contents (lanes : List (Lane Work)) (keep : TokenId → Bool) :
    (Lane.contents (lanes.filter (keep ·.token))).map (·.id) =
      ((lanes.map fun lane => (lane.token, lane.jobs.map (·.id))).filter (keep ·.1)).flatMap
        (·.2) := by
  induction lanes with
  | nil => rfl
  | cons lane tail ih =>
      by_cases kept : keep lane.token = true <;> simp [kept, ih]

/-- The order of the jobs can be seen from the roster. -/
theorem order_congr (same : rest.roster = p.roster) (first : Option TokenId) :
    (rest.order first).map (·.id) = (p.order first).map (·.id) := by
  obtain ⟨shared, lanes⟩ := Prod.mk.inj same
  cases first with
  | none =>
      have all := fun q : Pool Work => ids_contents q.lanes fun _ => true
      simp only [List.filter_true] at all
      simp only [order, contents, List.map_append, shared, all, lanes]
  | some t =>
      have own := fun q : Pool Work => ids_contents q.lanes (· = t)
      have others := fun q : Pool Work => ids_contents q.lanes (· ≠ t)
      simp only [order, waitingIn, List.map_append, shared, own, others, lanes]

end Pool

/-- The token whose lane comes first, if there is one. -/
def Source.first? : Source → Option TokenId
  | .pool _ => none
  | .lane _ t => some t

namespace System

variable {s s' : System Work} {p : PoolId} {t : TokenId} {source : Source} {job : Job Work}

/-- A source is at home if its lane belongs to the pool that is asked. -/
def IsHome (s : System Work) (source : Source) : Prop :=
  ∀ t, source.first? = some t → t.index < s.tokens.length ∧ (s.token t).pool = source.receiver

theorem Retains.isHome (retains : s.Retains s') (home : s.IsHome source) : s'.IsHome source := by
  intro t first
  obtain ⟨known, own⟩ := home t first
  exact ⟨Nat.lt_of_lt_of_le known retains.tokens, (retains.issuer t known).trans own⟩

theorem take_home (home : s.IsHome source) :
    s.take source = ((s.pool source.receiver).next source.first?).map fun (job, rest) =>
      (job, s.modifyPool source.receiver fun _ => rest) := by
  cases source with
  | pool receiver => rfl
  | lane receiver t =>
      have own : (s.token t).pool = receiver := (home t rfl).2
      simp only [take, own, Source.receiver, Source.first?, Pool.next]
      cases (s.pool receiver).popLane t <;> rfl

theorem known_of_next {first : Option TokenId} {rest : Pool Work}
    (taken : (s.pool p).next first = some (job, rest)) : p.index < s.pools.length := by
  refine Nat.lt_of_not_le fun beyond => ?_
  have unknown : s.pool p = default := by
    rw [pool, List.getD_eq_getElem?_getD, List.getElem?_eq_none beyond]
    rfl
  rw [unknown] at taken
  cases first <;> cases taken

theorem contents_lanes (ordered : s.Ordered) (p : PoolId) (keep : TokenId → Bool) :
    Lane.contents ((s.pool p).lanes.filter (keep ·.token)) =
      ((s.openTokens p).filter keep).flatMap (s.pool p).waitingIn := by
  have once := ordered.once p
  have own : ∀ lane ∈ (s.pool p).lanes, (s.pool p).waitingIn lane.token = lane.jobs := by
    intro lane member
    obtain ⟨before, after, split⟩ := List.mem_iff_append.mp member
    simp only [Pool.waitingIn, Pool.filter_lane split once, Lane.contents_cons,
      Lane.contents_nil, List.append_nil]
  rw [← ordered.lanes, List.filter_map, List.flatMap_map, Lane.contents]
  exact List.flatMap_congr fun lane member => (own lane (List.mem_filter.mp member).1).symm

theorem order_none (ordered : s.Ordered) (p : PoolId) :
    (s.pool p).order none =
      (s.pool p).shared ++ (s.openTokens p).flatMap (s.pool p).waitingIn := by
  have lanes := contents_lanes ordered p fun _ => true
  simp only [List.filter_true] at lanes
  rw [Pool.order, Pool.contents, lanes]

theorem order_some (ordered : s.Ordered) (p : PoolId) (t : TokenId) :
    (s.pool p).order (some t) = (s.pool p).waitingIn t ++ ((s.pool p).shared ++
      ((s.openTokens p).filter (· ≠ t)).flatMap (s.pool p).waitingIn) := by
  rw [Pool.order, contents_lanes ordered p fun u => decide (u ≠ t)]

theorem order_release (ordered : s.Ordered) (known : p.index < s.pools.length)
    (own : (s.token t).pool = p) :
    ((s.releaseToken t).1.pool p).order none = (s.pool p).shared ++ ((s.pool p).waitingIn t ++
      ((s.openTokens p).filter (· ≠ t)).flatMap (s.pool p).waitingIn) := by
  subst own
  have released : (s.releaseToken t).1.pool (s.token t).pool =
      (s.pool (s.token t).pool).release t := pool_modifyPool_self _ known
  rw [released, Pool.order, Pool.contents, Pool.lanes_release,
    contents_lanes ordered _ fun u => decide (u ≠ t), ← List.append_assoc]
  rfl

end System

/-! ## One operation after the other -/

inductive World.Releases (w : World) (thread : ThreadId) (batches : List String) (t : TokenId) :
    Op → Prop where
  | drop {name : String} (driver : thread = .driver)
      (named : w.names.find? name = some (.token t)) (idle : w.inUse (.token t) = false)
      (outside : name ∉ batches) : Releases w thread batches t (.drop (.given name))
  | catching {op} (releases : Releases w thread batches t op) :
      Releases w thread batches t (.catching op)

theorem World.Releases.perform {ctx : Context} {w : World} {t : TokenId} {op : Op}
    (releases : w.Releases ctx.thread ctx.batches t op) (catchAll : Bool) :
    ∃ caught names, op.perform ctx w catchAll =
      { world := { w with names, system := (w.system.releaseToken t).1 }
        events := Event.ofNotices (w.system.releaseToken t).2
        push := [.call [] .report caught]
        signal := .returned .nothing } := by
  have accepted : ∃ names, Begun.ofOp ctx w op.uncaught.2 = .ok
      { world := { w with names, system := (w.system.releaseToken t).1 }
        events := Event.ofNotices (w.system.releaseToken t).2
        signal := .returned .nothing } := by
    induction releases with
    | @drop name driver named idle outside =>
        refine ⟨w.names.remove name, ?_⟩
        have found := World.resolve_driver named
        simp only [Op.uncaught, Begun.ofOp, Begun.drop, Arg.require, found, Bind.bind, Except.bind,
          driver, beq_self_eq_true, World.isBusy, idle, outside, List.contains_eq_mem,
          decide_false, Bool.not_false]
        rfl
    | catching _ ih => exact ih
  obtain ⟨names, accepted⟩ := accepted
  refine ⟨op.uncaught.1 || catchAll, names, ?_⟩
  simp only [Op.perform, accepted]
  rfl

namespace Machine

variable {m : Machine} {course : Course} {replies : List Reply} {op : Op} {ops calls rest : List Op}
  {below : List Frame} {on : Object} {token : Option Object} {source : Source} {p : PoolId}
  {t : TokenId}

/-- The script goes through operations that each run one job, the jobs being these. Each operation
starts the body of its job in its first turn and is told that there was a job, when nothing of it is
left. The last one is told that there was none. -/
inductive Exhausts (course : Course) (rest : List Op) (below : List Frame) :
    Machine → List Reply → List Op → List JobId → Prop where
  | none {m : Machine} {replies : List Reply} {op : Op} {turns : Nat}
      (at_ : m.At course replies (op :: rest) below)
      (span : m.Span (course.frame replies rest :: below) turns (.returned (.flag false))) :
      Exhausts course rest below m replies [op] []
  | job {m : Machine} {replies : List Reply} {op : Op} {ops : List Op} {turns : Nat}
      {job : JobId} {jobs : List JobId} (at_ : m.At course replies (op :: ops ++ rest) below)
      (starts : (m.run 1).topJob? = some job)
      (span : m.Span (course.frame replies (ops ++ rest) :: below) turns (.returned (.flag true)))
      (later : Exhausts course rest below (m.run (turns + 1)) (replies ++ [.flag true]) ops jobs) :
      Exhausts course rest below m replies (op :: ops) (job :: jobs)

/-- The operations of a script, up to some that are left, ask a source for a job each. The jobs come
to an end, and leave the pool that is asked alone. -/
structure Repeats (m : Machine) (course : Course) (rest : List Op) (below : List Frame)
    (source : Source) : Prop where
  fetches : ∀ k replies op ops, (m.run k).At course replies (op :: ops ++ rest) below →
    ∃ on token, (m.run k).world.Fetches (m.run k).driver.id on token source op
  spares : ∀ k push replies ops, push ≠ [] →
    (m.run k).driver.frames = push ++ course.frame replies (ops ++ rest) :: below →
    ((m.run (k + 1)).world.system.pool source.receiver).roster =
      ((m.run k).world.system.pool source.receiver).roster
  ends : ∀ k job label next left onBatch push replies ops, (m.run k).driver.frames =
      .body job label next left onBatch :: (push ++ course.frame replies (ops ++ rest) :: below) →
    ∃ j, (m.run (k + j)).height ≤ (push ++ course.frame replies (ops ++ rest) :: below).length

theorem Repeats.later (repeats : m.Repeats course rest below source) (turns : Nat) :
    (m.run turns).Repeats course rest below source where
  fetches k := by
    rw [← run_add]
    exact repeats.fetches (turns + k)
  spares k := by
    rw [← run_add, ← run_add]
    exact repeats.spares (turns + k)
  ends k := by
    simp only [← run_add, ← Nat.add_assoc]
    exact repeats.ends (turns + k)

theorem Repeats.returns (repeats : m.Repeats course rest below source) {task : Task}
    {loans : List Loan} {caught : Bool}
    (stack : (m.run 1).driver.frames = task.frames ++ .contain task.id source.receiver ::
      .executed :: .call loans .report caught :: course.frame replies (ops ++ rest) :: below) :
    ∃ turns, m.Span (course.frame replies (ops ++ rest) :: below) turns
      (.returned (.flag true)) := by
  obtain ⟨low, left⟩ := task_leaves stack fun under top => by
    have split : under = (task.batch.toList.map (.settle task.id) ++
        [.contain task.id source.receiver, .executed, .call loans .report caught]) ++
        course.frame replies (ops ++ rest) :: below := by
      rw [stack, Task.frames] at top
      simpa using (List.cons.inj top).2.symm
    rw [split] at top ⊢
    simpa only [run_add] using repeats.ends 1 _ _ _ _ _ _ _ _ top
  obtain ⟨k, span, -, -⟩ := contains stack left
  obtain ⟨back, told, _⟩ := run_one_executed span.back span.outcome
  obtain ⟨back', told', _⟩ := call_returns back told
  rw [← run_add] at back told back' told'
  rw [← run_add] at back' told'
  have above : (course.frame replies (ops ++ rest) :: below).length < (m.run 1).height := by
    rw [height, stack]
    simp only [List.length_append, List.length_cons]
    omega
  exact ⟨_, .after_first above ((span.pop back told).pop back' told')⟩

theorem Repeats.stays (repeats : m.Repeats course rest below source)
    (at_ : m.At course replies (op :: ops ++ rest) below) {turns : Nat} {outcome : Signal}
    (span : m.Span (course.frame replies (ops ++ rest) :: below) turns outcome) :
    ((m.run turns).world.system.pool source.receiver).roster =
      ((m.run 1).world.system.pool source.receiver).roster := by
  obtain ⟨_, _, _, first⟩ := at_.first
  have stack := congrArg (·.driver.frames) (first _ rfl)
  have same : ∀ k, k + 1 ≤ turns →
      ((m.run (1 + k)).world.system.pool source.receiver).roster =
        ((m.run 1).world.system.pool source.receiver).roster := by
    intro k
    induction k with
    | zero => exact fun _ => rfl
    | succ k ih =>
        intro few
        have higher : ∀ j ≤ k, (course.frame replies (ops ++ rest) :: below).length <
            ((m.run 1).run j).height := fun j le => by
          rw [← run_add]
          exact span.inside _ (Nat.add_pos_left Nat.one_pos j) (by omega)
        obtain ⟨push, frames⟩ := keeps_below stack fun j less => higher j (Nat.le_of_lt less)
        have high := higher k (Nat.le_refl k)
        rw [height, frames] at high
        rw [← run_add] at frames
        have more : push ≠ [] := by
          rintro rfl
          exact Nat.lt_irrefl _ high
        rw [← ih (by omega)]
        exact repeats.spares _ _ _ _ more frames
  obtain ⟨n, rfl⟩ := Nat.exists_eq_add_of_le span.begun
  exact same n (by omega)

/-- A script that asks for one job after the other gets them in order. -/
theorem Repeats.exhausts (repeats : m.Repeats course rest below source)
    (ledger : Ledger m.world m.frames) (home : m.world.system.IsHome source)
    (idle : (m.world.system.pool source.receiver).workers = 0)
    (at_ : m.At course replies (calls ++ rest) below) {jobs : List JobId}
    (order : ((m.world.system.pool source.receiver).order source.first?).map (·.id) = jobs)
    (enough : calls.length = jobs.length + 1) : Exhausts course rest below m replies calls jobs := by
  induction calls generalizing m replies jobs with
  | nil => cases enough
  | cons op ops ih =>
      obtain ⟨on, token, fetches⟩ := repeats.fetches 0 _ _ _ at_
      have once := ledger.ordered.once source.receiver
      have take := take_home home
      cases next : (m.world.system.pool source.receiver).next source.first? with
      | none =>
          rw [Pool.order_of_none next once] at order
          subst order
          obtain rfl : ops = [] := List.length_eq_zero_iff.mp (Nat.succ.inj enough)
          rw [next] at take
          exact .none at_ (at_.finds_none fetches take).1
      | some taken =>
          obtain ⟨job, left⟩ := taken
          rw [Pool.order_of_next next once] at order
          subst order
          rw [next] at take
          have known := known_of_next next
          obtain ⟨inlet, loses⟩ := Pool.loses_of_next next
          obtain ⟨task, rfl⟩ : ∃ task : Task, job = task.job := by
            refine (Pool.Each.loses (ledger.tasked _) loses).1.resolve_left ?_
            rintro ⟨_, busy⟩
            omega
          obtain ⟨loans, caught, stack, system, _⟩ := at_.finds fetches take
          have starts : (m.run 1).topJob? = some task.id := by
            rw [topJob?, stack]
            rfl
          obtain ⟨turns, span⟩ := repeats.returns stack
          obtain ⟨back, world, _⟩ := noted span.back span.outcome
          rw [← run_add] at back world
          have retains := retains_run ledger (turns + 1)
          refine .job at_ starts span
            (ih (repeats.later _) (ledger_run ledger _) (retains.isHome home) ?_ back ?_ ?_)
          · rw [retains.workers _ known, idle]
          · refine Pool.order_congr ?_ _
            rw [world, repeats.stays at_ span, system, pool_modifyPool_self _ known]
          · simpa using enough

theorem At.released (at_ : m.At course replies (op :: ops) below)
    (releases : m.world.Releases m.driver.id (Frame.batchNames m.driver.frames) t op) :
    (m.run 3).At course (replies ++ [.nothing]) ops below ∧
      (m.run 3).world.system = (m.world.system.releaseToken t).1 := by
  obtain ⟨ctx, thread, batches, turns⟩ := at_.first
  rw [← thread, ← batches] at releases
  obtain ⟨caught, names, performed⟩ := releases.perform course.catchesAll
  have first := turns _ performed
  obtain ⟨back, told, _, world, _⟩ := call_returns (m := m.run 1) (by rw [first]; rfl)
    (by rw [first])
  rw [← run_add] at back told world
  obtain ⟨at', world', _⟩ := noted back told
  rw [← run_add] at at' world'
  refine ⟨at', ?_⟩
  rw [world', world, first]
  rfl

/-- The order in which a pool without workers is drained, while its jobs leave its queues alone and
come to an end, by a panic or not. Without a lane that is named, the jobs of the shared queue come
first, and then those of the lanes in the order in which their tokens were made. A lane that is
named comes before these. If its token is dropped first, it comes between them. -/
theorem Arranged.drain_order (arranged : m.Arranged)
    (idle : (m.world.system.pool p).workers = 0) :
    let s := m.world.system
    let lane := (s.pool p).waitingIn
    let ids (jobs : List (Job Work)) := jobs.map (·.id)
    (∀ calls, calls.length = (s.pool p).contents.length + 1 →
      m.At course replies (calls ++ rest) below → m.Repeats course rest below (.pool p) →
      Exhausts course rest below m replies calls
        (ids ((s.pool p).shared ++ (s.openTokens p).flatMap lane))) ∧
    ∀ t ∈ s.openTokens p, ∀ calls, calls.length = (s.pool p).contents.length + 1 →
      (m.At course replies (calls ++ rest) below → m.Repeats course rest below (.lane p t) →
        Exhausts course rest below m replies calls
          (ids (lane t ++ ((s.pool p).shared ++
            ((s.openTokens p).filter (· ≠ t)).flatMap lane)))) ∧
      ∀ op, m.At course replies (op :: calls ++ rest) below →
        m.world.Releases m.driver.id (Frame.batchNames m.driver.frames) t op →
        (m.run 3).Repeats course rest below (.pool p) →
        Exhausts course rest below (m.run 3) (replies ++ [.nothing]) calls
          (ids ((s.pool p).shared ++ (lane t ++
            ((s.openTokens p).filter (· ≠ t)).flatMap lane))) := by
  intro s lane ids
  have ledger := arranged.ledger
  have ordered := ledger.ordered
  have all : (s.pool p).contents = (s.pool p).shared ++ (s.openTokens p).flatMap lane :=
    order_none ordered p
  have counted : ∀ t, (lane t ++ ((s.pool p).shared ++
      ((s.openTokens p).filter (· ≠ t)).flatMap lane)).length = (s.pool p).contents.length :=
    fun t => order_some ordered p t ▸ ((s.pool p).order_perm (some t)).length_eq
  refine ⟨fun calls enough at_ repeats => ?_, fun t opened calls enough => ⟨fun at_ repeats => ?_,
    fun op at_ releases repeats => ?_⟩⟩
  · refine repeats.exhausts ledger nofun idle at_ ?_ ?_
    · rw [Source.first?, Source.receiver, order_none ordered]
    · rw [enough, all, List.length_map]
  · obtain ⟨own, live⟩ := mem_openTokens.mp opened
    have home : s.IsHome (.lane p t) := by
      rintro _ ⟨⟩
      exact ⟨token_known live, own⟩
    refine repeats.exhausts ledger home idle at_ (congrArg ids (order_some ordered p t)) ?_
    rw [enough, ← counted t, List.length_map]
  · obtain ⟨own, live⟩ := mem_openTokens.mp opened
    have known : p.index < s.pools.length := own ▸ ledger.issuer live
    obtain ⟨at', system⟩ := at_.released releases
    have order := order_release ordered known own
    refine repeats.exhausts (ledger_run ledger 3) nofun ?_ at' ?_ ?_
    · exact ((retains_run ledger 3).workers p known).trans idle
    · rw [system]
      exact congrArg ids order
    · rw [enough, ← counted t, List.length_map]
      simp only [List.length_append]
      omega

def asks (w : World) : Op → Source → Bool
  | .exec (.given name) .missing, .pool p => w.names.find? name = some (.pool p)
  | .exec (.given name) (.given other), .lane p t =>
    w.names.find? name = some (.pool p) ∧ w.names.find? other = some (.token t)
  | _, _ => false

/-- The next operation of the script of the driver thread asks the source, if there is one. -/
def asksNext (source : Source) (m : Machine) : Bool :=
  match m.driver.frames with
  | [.program (op :: _), .cleanup] => m.driver.id = .driver ∧ asks m.world op source
  | _ => true

theorem fetches_of_asks {w : World} (asked : asks w op source = true) :
    ∃ on token, w.Fetches .driver on token source op := by
  unfold asks at asked
  split at asked
  · exact ⟨_, _, .exec (.alone (World.resolve_driver (of_decide_eq_true asked))) rfl rfl⟩
  · obtain ⟨named, named'⟩ := of_decide_eq_true asked
    exact ⟨_, _, .exec
      (.through (World.resolve_driver named) (World.resolve_driver named')) rfl rfl⟩
  · cases asked

/-- What a script that comes to its end asks for can be seen from its run. -/
theorem repeats_of_run (turns : Nat) (finished : (m.run turns).driver.frames = [])
    (asked : ∀ k < turns, asksNext source (m.run k) = true)
    (spares : ∀ k < turns, (m.run k).height ≤ 2 ∨
      ((m.run (k + 1)).world.system.pool source.receiver).roster =
        ((m.run k).world.system.pool source.receiver).roster) :
    m.Repeats .program [] [.cleanup] source where
  fetches k replies op ops at_ := by
    have early : k < turns := by
      refine Nat.lt_of_not_le fun late => ?_
      have top := at_.top
      rw [run_finished finished late, finished] at top
      cases top
    have asked := asked k early
    rw [asksNext, at_.top] at asked
    obtain ⟨driver, asked⟩ := of_decide_eq_true asked
    rw [driver]
    exact fetches_of_asks asked
  spares k push replies ops more top := by
    rcases Nat.lt_or_ge k turns with early | late
    · refine (spares k early).resolve_left fun low => ?_
      have some := List.length_pos_iff.mpr more
      rw [height, top, List.length_append, List.length_cons, List.length_singleton] at low
      omega
    · rw [run_finished finished late, run_finished finished (Nat.le_succ_of_le late)]
  ends k job label next left onBatch push replies ops top :=
    (bodiesEnd_of_finished finished) k job label next left onBatch _ top

/-- A script with three jobs in a pool, one in the shared queue and one in the lane of each token,
before its last operations. The job of the first token panics. -/
def stocked (last : List Op) : Machine :=
  (Machine.load [] .plain
    ([.pool (.given "p") .missing .missing .missing .missing,
      .token (.given "t") (.given "p"),
      .token (.given "u") (.given "p"),
      .schedule (.given "p") (.given (.own "a" [])) (.given .forced) .missing,
      .schedule (.given "p") (.given (.own "b" [.panic (.given .unit)])) (.given .forced)
        (.given "t"),
      .schedule (.given "p") (.given (.own "c" [])) (.given .forced) (.given "u")] ++ last)).run 18

def fourTimes (token : Arg String) : List Op := List.replicate 4 (.exec (.given "p") token)

/-- The jobs run in the order of the queues; with the lane of the second token first; and with its
job after the shared queue, if the token is dropped before. -/
theorem stocked_drained :
    let plain := stocked (fourTimes .missing)
    let named := stocked (fourTimes (.given "u"))
    let dropped := stocked (.drop (.given "u") :: fourTimes .missing)
    (plain.Arranged ∧ plain.At .program [] (fourTimes .missing ++ []) [.cleanup] ∧
      plain.Repeats .program [] [.cleanup] (.pool ⟨0⟩) ∧
      (plain.world.system.pool ⟨0⟩).workers = 0 ∧
      Exhausts .program [] [.cleanup] plain [] (fourTimes .missing) [⟨0⟩, ⟨1⟩, ⟨2⟩]) ∧
    (named.Arranged ∧ named.At .program [] (fourTimes (.given "u") ++ []) [.cleanup] ∧
      named.Repeats .program [] [.cleanup] (.lane ⟨0⟩ ⟨1⟩) ∧
      ⟨1⟩ ∈ named.world.system.openTokens ⟨0⟩ ∧
      Exhausts .program [] [.cleanup] named [] (fourTimes (.given "u")) [⟨2⟩, ⟨0⟩, ⟨1⟩]) ∧
    (dropped.run 3).Repeats .program [] [.cleanup] (.pool ⟨0⟩) ∧
      dropped.world.Releases .driver (Frame.batchNames dropped.driver.frames) ⟨1⟩
        (.drop (.given "u")) ∧
      Exhausts .program [] [.cleanup] (dropped.run 3) [.nothing] (fourTimes .missing)
        [⟨0⟩, ⟨2⟩, ⟨1⟩] := by
  intro plain named dropped
  have arranged : ∀ last, (stocked last).Arranged := fun last =>
    ((Reached.load [] .plain _).run 18).arranged
  have repeats : plain.Repeats .program [] [.cleanup] (.pool ⟨0⟩) :=
    repeats_of_run 32 (List.isEmpty_iff.mp (by decide)) (by decide) (by decide)
  have repeats' : named.Repeats .program [] [.cleanup] (.lane ⟨0⟩ ⟨1⟩) :=
    repeats_of_run 32 (List.isEmpty_iff.mp (by decide)) (by decide) (by decide)
  have repeats'' : (dropped.run 3).Repeats .program [] [.cleanup] (.pool ⟨0⟩) :=
    repeats_of_run 30 (List.isEmpty_iff.mp (by decide)) (by decide) (by decide)
  have releases : dropped.world.Releases .driver (Frame.batchNames dropped.driver.frames) ⟨1⟩
      (.drop (.given "u")) := .drop rfl rfl (by decide) (by decide)
  have at_ : plain.At .program [] (fourTimes .missing ++ []) [.cleanup] := ⟨rfl, rfl⟩
  have at_' : named.At .program [] (fourTimes (.given "u") ++ []) [.cleanup] := ⟨rfl, rfl⟩
  have at_'' : dropped.At .program [] (.drop (.given "u") :: fourTimes .missing ++ [])
      [.cleanup] := ⟨rfl, rfl⟩
  have opened : ⟨1⟩ ∈ named.world.system.openTokens ⟨0⟩ := by decide
  have opened' : ⟨1⟩ ∈ dropped.world.system.openTokens ⟨0⟩ := by decide
  have inOrder := (Arranged.drain_order (arranged _) (p := ⟨0⟩) (by decide)).1 _ rfl at_ repeats
  have byName :=
    ((Arranged.drain_order (arranged _) (p := ⟨0⟩) (by decide)).2 _ opened _ rfl).1 at_' repeats'
  have released := ((Arranged.drain_order (arranged _) (p := ⟨0⟩) (by decide)).2 _ opened' _ rfl).2
    _ at_'' releases repeats''
  refine ⟨⟨arranged _, at_, repeats, by decide, ?_⟩, ⟨arranged _, at_', repeats', opened, ?_⟩,
    repeats'', releases, ?_⟩
  · convert inOrder using 1
    decide
  · convert byName using 1
    decide
  · convert released using 1
    · rfl
    · decide

end Machine

end TaskPool
