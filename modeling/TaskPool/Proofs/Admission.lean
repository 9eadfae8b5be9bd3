import TaskPool.Proofs.BatchLine
import TaskPool.Proofs.ScriptOperations

/-!
# Which submissions run at once

A submission is turned away, so that the submitting thread runs the task before the call returns,
exactly when a count exceeds a product: the outstanding tasks of the batch, or the queued jobs of
the pool that the task would enter. The product that is kept in a machine word stands for the true
one, since counts fit in a word. A submission that is not turned away adds one job at the end of one
queue and counts it, and nothing else.
-/

namespace TaskPool

open TaskPool.System

/-! ## The decision -/

/-- More jobs are queued than the multiplier allows for each worker. -/
def Pool.IsOverfull (p : Pool Work) : Prop := p.multiplier * p.workers < p.queued

instance (p : Pool Work) : Decidable p.IsOverfull := inferInstanceAs (Decidable (_ < _))

namespace System

variable {s : System Work} {p : PoolId} {t : TokenId} {b : BatchId} {entry : Entry} {work : Work}

def IsOverfull (s : System Work) (b : BatchId) : Prop :=
  (s.batch b).multiplier * (s.poolOf b).workers < (s.batch b).barrier.outstanding

instance (s : System Work) (b : BatchId) : Decidable (s.IsOverfull b) :=
  inferInstanceAs (Decidable (_ < _))

/-- The pool that work enters at the entry point: that of the batch, or the one that issued the
token. -/
def home (s : System Work) : Entry → PoolId
  | .pool receiver _ => receiver
  | .token _ t _ => (s.token t).pool
  | .batch b _ => (s.batch b).pool

def TurnsAway (s : System Work) : Entry → Prop
  | .pool receiver forced => forced = false ∧ (s.pool receiver).IsOverfull
  | .token _ t forced => forced = false ∧ (s.pool (s.token t).pool).IsOverfull
  | .batch b .checked => s.IsOverfull b ∨ (s.poolOf b).IsOverfull
  | .batch b .ownCheck => s.IsOverfull b
  | .batch _ .forced => False

instance (s : System Work) : (entry : Entry) → Decidable (s.TurnsAway entry)
  | .pool .. => inferInstanceAs (Decidable (_ ∧ _))
  | .token .. => inferInstanceAs (Decidable (_ ∧ _))
  | .batch _ .checked => inferInstanceAs (Decidable (_ ∨ _))
  | .batch b .ownCheck => inferInstanceAs (Decidable (s.IsOverfull b))
  | .batch _ .forced => inferInstanceAs (Decidable False)

/-- The counts that a submission looks at fit in a machine word, and no worker of the pool sleeps.
-/
structure Countable (s : System Work) (entry : Entry) : Prop where
  awake : (s.pool (s.home entry)).asleep = 0
  queued : (s.pool (s.home entry)).queued ≤ maxWord
  outstanding : ∀ b admission, entry = .batch b admission →
    (s.batch b).barrier.outstanding ≤ maxWord

theorem pool_saturated_iff {p : Pool Work} (awake : p.asleep = 0) (bounded : p.queued ≤ maxWord) :
    p.isSaturated = true ↔ p.IsOverfull := by
  simp only [Pool.isSaturated, Pool.limit, awake, beq_self_eq_true, Bool.true_and]
  exact decide_eq_true_iff.trans (loadLimit_lt_iff bounded)

theorem batch_saturated_iff (bounded : (s.batch b).barrier.outstanding ≤ maxWord) :
    s.isSaturated b = true ↔ s.IsOverfull b := by
  simp only [isSaturated, threshold]
  exact decide_eq_true_iff.trans (loadLimit_lt_iff bounded)

theorem offer_runsNow (job : Job Work) :
    (s.offer p job).route.runsNow = true ↔ (s.pool p).isSaturated = true := by
  unfold offer
  split
  · next full => exact ⟨fun _ => full, fun _ => rfl⟩
  · next room => exact ⟨fun now => Bool.noConfusion now, fun full => absurd full room⟩

theorem offerVia_runsNow (receiver : PoolId) (job : Job Work) :
    (s.offerVia receiver t job).route.runsNow = true ↔
      (s.pool (s.token t).pool).isSaturated = true := by
  simp only [offerVia]
  split
  · next full => exact ⟨fun _ => full, fun _ => rfl⟩
  · next room => exact ⟨fun now => Bool.noConfusion now, fun full => absurd full room⟩

theorem submitToBatch_runsNow {admission : Admission} (id : JobId)
    (owned : ∀ t, (s.batch b).kind = .single t → (s.token t).pool = (s.batch b).pool) :
    (s.submitToBatch b admission id work).route.runsNow = true ↔
      admission ≠ .forced ∧ s.isSaturated b = true ∨
        admission = .checked ∧ (s.poolOf b).isSaturated = true := by
  unfold submitToBatch
  split
  · next declines => exact ⟨fun _ => .inl declines, fun _ => rfl⟩
  · next admits =>
      simp only [wrap, admits, false_or]
      cases kind : (s.batch b).kind with
      | single t =>
          cases admission with
          | checked =>
              refine (offerVia_runsNow ..).trans ?_
              rw [show ((s.modifyBatch b (·.mapBarrier .enlist)).token t) = s.token t from rfl,
                owned t kind]
              exact ⟨fun full => ⟨rfl, full⟩, fun full => full.2⟩
          | ownCheck | forced =>
              exact ⟨fun now => Bool.noConfusion now, fun is => Admission.noConfusion is.1⟩
      | multi =>
          cases admission with
          | checked => exact (offer_runsNow _).trans ⟨fun full => ⟨rfl, full⟩, fun full => full.2⟩
          | ownCheck | forced =>
              exact ⟨fun now => Bool.noConfusion now, fun is => Admission.noConfusion is.1⟩

/-- The decision about a submission, counted without any cap. -/
theorem submit_runsNow_iff (countable : s.Countable entry)
    (owned : ∀ b t, (s.batch b).kind = .single t → (s.token t).pool = (s.batch b).pool) :
    (s.submit entry work).route.runsNow = true ↔ s.TurnsAway entry := by
  have full := pool_saturated_iff countable.awake countable.queued
  cases entry with
  | pool receiver forced =>
      cases forced with
      | true => exact ⟨nofun, fun wrong => nomatch wrong.1⟩
      | false => exact (offer_runsNow _).trans (full.trans ⟨fun is => ⟨rfl, is⟩, fun is => is.2⟩)
  | token receiver t forced =>
      cases forced with
      | true => exact ⟨nofun, fun wrong => nomatch wrong.1⟩
      | false =>
          exact (offerVia_runsNow receiver _).trans
            (full.trans ⟨fun is => ⟨rfl, is⟩, fun is => is.2⟩)
  | batch b admission =>
      have crowded := batch_saturated_iff (countable.outstanding b admission rfl)
      refine (submitToBatch_runsNow (s := { s with submissions := s.submissions + 1 }) _
        (owned b)).trans ?_
      rw [show ({ s with submissions := s.submissions + 1 } : System Work).isSaturated b =
          s.isSaturated b from rfl, show ({ s with submissions := s.submissions + 1 } :
          System Work).poolOf b = s.pool (s.home (.batch b admission)) from rfl, full, crowded]
      cases admission with
      | checked => exact ⟨fun is => is.imp (·.2) (·.2), fun is => is.imp (⟨nofun, ·⟩) (⟨rfl, ·⟩)⟩
      | ownCheck =>
          exact ⟨fun is => (is.resolve_right fun wrong => nomatch wrong.1).2,
            fun is => .inl ⟨nofun, is⟩⟩
      | forced =>
          refine ⟨fun is => ?_, False.elim⟩
          rcases is with ⟨wrong, _⟩ | ⟨wrong, _⟩
          · exact wrong rfl
          · cases wrong

/-- The work that a batch turns away is raw, and the batch knows nothing of it. -/
theorem submit_declined {admission : Admission} (work : Work) (checks : admission ≠ .forced)
    (saturated : s.isSaturated b = true) :
    (s.submit (.batch b admission) work).route.runsNow = true ∧
      (s.submit (.batch b admission) work).job = ⟨⟨s.submissions⟩, none, work⟩ ∧
      (s.submit (.batch b admission) work).system =
        { s with submissions := s.submissions + 1 } := by
  have declines : admission ≠ .forced ∧
      ({ s with submissions := s.submissions + 1 } : System Work).isSaturated b = true :=
    ⟨checks, saturated⟩
  simp only [submit, submitToBatch, if_pos declines, Route.runsNow, and_self]

end System

/-! ## What a queued submission changes -/

/-- The pool has one more job, at the end of one of its queues, and counts it. -/
structure Pool.Gains (p : Pool Work) (inlet : Inlet) (job : Job Work) (p' : Pool Work) : Prop where
  queue : p'.queue inlet = p.queue inlet ++ [job]
  queues : ∀ other, other ≠ inlet → p'.queue other = p.queue other
  queued : p'.queued = p.queued + 1
  tokens : p'.lanes.map (·.token) = p.lanes.map (·.token)
  rest : p' = { p with shared := p'.shared, lanes := p'.lanes, queued := p'.queued }

theorem Pool.push_gains {p : Pool Work} {inlet : Inlet} (job : Job Work)
    (once : ∀ t, inlet = .lane t → (p.lanes.map (·.token)).count t = 1) :
    p.Gains inlet job (p.push inlet job) where
  queue := by rw [queue_push job once, if_pos rfl]
  queues other different := by rw [queue_push job once, if_neg different, List.append_nil]
  queued := queued_push inlet job p
  tokens := push_tokens inlet job p
  rest := by cases inlet <;> rfl

namespace System

variable {s : System Work} {b : BatchId} {entry : Entry} {work : Work}

/-- The job was queued where work enters at the entry point. Its batch, if it was submitted to one,
counts it as outstanding. -/
structure Gains (s : System Work) (entry : Entry) (job : Job Work) (s' : System Work) : Prop where
  pool : (s.pool (s.home entry)).Gains (s.inletOf entry).2 job (s'.pool (s.home entry))
  pools : ∀ q, q ≠ s.home entry → s'.pool q = s.pool q
  tokens : s'.tokens = s.tokens
  batch : ∀ b admission, entry = .batch b admission → s'.batch b =
    { s.batch b with
      barrier := { (s.batch b).barrier with outstanding := (s.batch b).barrier.outstanding + 1 } }
  batches : ∀ b, (∀ admission, entry ≠ .batch b admission) → s'.batch b = s.batch b
  known : s'.pools.length = s.pools.length ∧ s'.batches.length = s.batches.length
  submissions : s'.submissions = s.submissions + 1

/-- The entry point exists: its pool, its token and its batch. -/
structure Ready (s : System Work) (entry : Entry) : Prop where
  inlet : (s.inletOf entry).1 = s.home entry
  pool : (s.home entry).index < s.pools.length
  lane : ∀ t, (s.inletOf entry).2 = .lane t →
    ((s.pool (s.home entry)).lanes.map (·.token)).count t = 1
  batch : ∀ b admission, entry = .batch b admission → b.index < s.batches.length

theorem submit_gains (ready : s.Ready entry)
    (queued : (s.submit entry work).route.runsNow = false) :
    (s.submit entry work).job = ⟨⟨s.submissions⟩, entry.target.batch?, work⟩ ∧
      s.Gains entry ⟨⟨s.submissions⟩, entry.target.batch?, work⟩ (s.submit entry work).system := by
  cases submit_submits (s := s) entry work with
  | declined _ _ route =>
      rw [route] at queued
      cases queued
  | admitted admits =>
      obtain ⟨job, ⟨route, _⟩ | ⟨_, system⟩⟩ := admits
      · rw [route] at queued
        cases queued
      · refine ⟨job, ?_⟩
        rw [system, ready.inlet]
        have known : (s.home entry).index < (s.count entry.target.batch?).pools.length := by
          rw [count_pools]
          exact ready.pool
        exact
          { pool := by
              rw [pool_modifyPool_self _ known, count_pool]
              exact Pool.push_gains _ ready.lane
            pools := fun q other => by
              rw [pool_modifyPool_of_ne _ (Ne.symm other), count_pool]
            tokens := by cases entry <;> rfl
            batch := by
              rintro b admission rfl
              exact batch_modifyBatch_self (s := { s with submissions := s.submissions + 1 }) _
                (ready.batch b admission rfl)
            batches := fun b other => by
              cases entry with
              | pool | token => rfl
              | batch c admission =>
                  refine batch_modifyBatch_of_ne
                    (s := { s with submissions := s.submissions + 1 }) _ ?_
                  rintro rfl
                  exact other admission rfl
            known := by
              refine ⟨?_, ?_⟩
              · simp only [modifyPool, List.length_modify, count_pools]
              · cases entry with
                | pool | token => rfl
                | batch => exact List.length_modify ..
            submissions := count_submissions _ }

end System

theorem Ledger.ready_of_means {w : World} {frames : List Frame} {on : Object}
    {token : Option Object} {entry : Entry} (ledger : Ledger w frames)
    (means : on.Means token entry.target) (listed : w.system.Listed on)
    (listed' : ∀ object, token = some object → w.system.Listed object) : w.system.Ready entry := by
  have pool : ∀ {p}, on.pool? = some p → p.index < w.system.pools.length := by
    intro p is
    cases on <;> cases is <;> exact listed
  cases entry with
  | pool receiver forced =>
      cases means with
      | pool is => exact ⟨rfl, pool is, nofun, nofun⟩
  | token receiver t forced =>
      cases means with
      | token is =>
          have opened := (listed' _ rfl).1
          refine ⟨rfl, ledger.issuer opened, ?_, nofun⟩
          rintro _ ⟨⟩
          exact ledger.ordered.count_lane opened
  | batch b admission =>
      cases means with
      | batch =>
          have opened := Stage.opened listed
          have known := batch_known opened
          have inlet : ∀ t, (w.system.inletOf (.batch b admission)).2 = .lane t →
              (w.system.batch b).kind = .single t := by
            intro t is
            simp only [inletOf] at is
            cases kind : (w.system.batch b).kind <;> rw [kind] at is <;> cases is
            rfl
          refine ⟨?_, ledger.batches b known, fun t is => ?_, ?_⟩
          · simp only [inletOf]
            cases kind : (w.system.batch b).kind with
            | multi => rfl
            | single t => exact (ledger.ordered.owned b t kind).2.1
          · obtain ⟨_, same, open'⟩ := ledger.ordered.owned b t (inlet t is)
            rw [home, ← same]
            exact ledger.ordered.count_lane (open' opened)
          · rintro _ _ ⟨⟩
            exact known

theorem Ledger.ready {w : World} {frames : List Frame} {thread : ThreadId} {on : Object}
    {token : Option Object} {entry : Entry} {work : Work} {op : Op} (ledger : Ledger w frames)
    (submits : w.Submits thread on token entry work op) : w.system.Ready entry := by
  obtain ⟨means, listed, listed'⟩ := submits.means ledger
  exact ledger.ready_of_means means listed listed'

namespace Machine

variable {m : Machine} {course : Course} {replies : List Reply} {op : Op} {ops body : List Op}
  {below base : List Frame} {on : Object} {token : Option Object} {entry : Entry} {label : String}
  {onBatch : Option String}

/-- The body of the job starts before what is above `base` is gone. -/
def StartsAbove (m : Machine) (base : List Frame) (job : JobId) : Prop :=
  ∃ turns events label, (∀ k, 0 < k → k ≤ turns → base.length < (m.run k).height) ∧
    (m.run turns).history = m.history ++ events ∧ .started job label ∈ events

theorem At.runs (at_ : m.At course replies (op :: ops) below)
    (submits : m.world.Submits m.driver.id on token entry (.body label body onBatch) op)
    (now : (m.world.system.submit entry (.body label body onBatch)).route.runsNow = true) :
    let made := m.world.system.submit entry (.body label body onBatch)
    ∃ caught events, (m.run 1).world.system = made.system ∧
      (m.run 1).driver.frames = .body made.job.id label 0 body onBatch ::
        (made.job.batch.toList.map (.settle made.job.id) ++
          .call (Begun.held on token .share) .report caught :: course.frame replies ops :: below) ∧
      (m.run 1).history = m.history ++ events ++ [.started made.job.id label] := by
  obtain ⟨ctx, _, enters⟩ := at_.submitted submits
  have world := enters.world
  have frames := enters.frames
  have history := enters.history
  have work := submit_work (s := m.world.system) entry (.body label body onBatch)
  revert work now world frames history
  simp only [Work.submitted]
  generalize m.world.system.submit entry (.body label body onBatch) = made
  intro now world frames history work
  obtain ⟨system, ⟨id, batch, _⟩, route, notices⟩ := made
  cases work
  simp only [now, if_true] at world frames history
  refine ⟨op.uncaught.1 || course.catchesAll,
    Event.ofNotices notices ++ [.submitted id batch route], ?_, ?_, ?_⟩
  · rw [world]
    rfl
  · rw [frames]
    simp only [Turn.after, Job.launch, Turn.above, List.append_assoc, List.cons_append,
      List.nil_append]
  · rw [history]
    simp only [Turn.after, Job.launch, Turn.above, List.append_assoc]

/-- A submission that is not turned away returns in its second turn. -/
theorem At.queues (at_ : m.At course replies (op :: ops) below)
    (submits : m.world.Submits m.driver.id on token entry work op)
    (queued : (m.world.system.submit entry work).route.runsNow = false) :
    let made := m.world.system.submit entry work
    m.Span (course.frame replies ops :: below) 2 (.returned .nothing) ∧
      (m.run 2).world = { m.world with system := made.system } ∧
      (m.run 1).history = m.history ++ Event.ofNotices made.notices ++
        [.submitted made.job.id made.job.batch made.route] ∧
      (m.run 2).history = (m.run 1).history ∧ (m.run 2).others = m.others := by
  obtain ⟨ctx, _, enters⟩ := at_.submitted submits
  simp only [Work.submitted, queued, Bool.false_eq_true, if_false] at enters
  obtain ⟨back, told, others, world, history⟩ := call_returns enters.frames enters.signal
  rw [← run_add] at back told others world history
  refine ⟨Span.pop (.one enters.frames enters.signal) back told, ?_, ?_, history, ?_⟩
  · rw [world, enters.world]
    exact World.giveBack_lend _ _
  · rw [enters.history, List.append_assoc]
    exact congrArg (m.history ++ ·) (List.append_nil _)
  · rw [others, enters.others]
    exact List.append_nil _

theorem At.queues_quietly (at_ : m.At course replies (op :: ops) below)
    (submits : m.world.Submits m.driver.id on token entry work op)
    (queued : (m.world.system.submit entry work).route.runsNow = false) (job : JobId) :
    ¬ m.StartsAbove (course.frame replies ops :: below) job := by
  rintro ⟨turns, events, label, above, history, started⟩
  obtain ⟨span, _, first, _⟩ := at_.queues submits queued
  have few : turns < 2 := by
    refine Nat.lt_of_not_le fun many => ?_
    have high := above 2 Nat.two_pos many
    rw [height, span.back] at high
    exact Nat.lt_irrefl _ high
  have silent : .started job label ∉ Event.ofNotices (m.world.system.submit entry work).notices ++
      [.submitted (m.world.system.submit entry work).job.id
        (m.world.system.submit entry work).job.batch
        (m.world.system.submit entry work).route] := by
    simp [Event.ofNotices]
  rcases Nat.le_one_iff_eq_zero_or_eq_one.mp (Nat.le_of_lt_succ few) with rfl | rfl
  · rw [List.self_eq_append_right.mp history] at started
    cases started
  · rw [first, List.append_assoc] at history
    exact silent (List.append_cancel_left history ▸ started)

/-- A submission runs its task before it returns exactly when the entry point turns it away, where
the products are not capped. Otherwise it returns at once, no task starts meanwhile, and all that it
changes is that one job more waits at the end of one queue and is counted. A task that a batch turns
away runs raw: but for its body no count and no queue changes. -/
theorem Arranged.admission (arranged : m.Arranged)
    (at_ : m.At course replies (op :: ops) below)
    (submits : m.world.Submits m.driver.id on token entry (.body label body onBatch) op)
    (countable : m.world.system.Countable entry) :
    let s := m.world.system
    let base := course.frame replies ops :: below
    (m.StartsAbove base ⟨s.submissions⟩ ↔ s.TurnsAway entry) ∧
    (¬ s.TurnsAway entry →
      m.Span base 2 (.returned .nothing) ∧ (∀ job, ¬ m.StartsAbove base job) ∧
      ∃ s', (m.run 2).world = { m.world with system := s' } ∧
        s.Gains entry ⟨⟨s.submissions⟩, entry.target.batch?, .body label body onBatch⟩ s') ∧
    (∀ b admission, entry = .batch b admission → admission ≠ .forced → s.IsOverfull b →
      (m.run 1).world.system = { s with submissions := s.submissions + 1 } ∧
      ∃ loans caught, (m.run 1).driver.frames =
          .body ⟨s.submissions⟩ label 0 body onBatch :: .call loans .report caught :: base ∧
        ∀ turns outcome, (m.run 1).Span (.call loans .report caught :: base) turns outcome →
          (m.run (1 + turns + 1)).driver.frames = base ∧
          (m.run (1 + turns + 1)).world.system = (m.run (1 + turns)).world.system) := by
  intro s base
  have ready : s.Ready entry := arranged.ledger.ready submits
  have decided : (s.submit entry (.body label body onBatch)).route.runsNow = true ↔
      s.TurnsAway entry :=
    submit_runsNow_iff countable fun b t kind => (arranged.ledger.ordered.owned b t kind).2.1
  have number : (s.submit entry (.body label body onBatch)).job.id = ⟨s.submissions⟩ := by
    cases submit_submits (s := s) entry (.body label body onBatch) with
    | declined _ job => rw [job]
    | admitted admits => rw [admits.1]
  refine ⟨⟨fun starts => ?_, fun full => ?_⟩, fun room => ?_, ?_⟩
  · refine decided.mp (Bool.eq_false_imp_eq_true.mp fun queued => ?_)
    exact absurd starts (at_.queues_quietly submits queued _)
  · obtain ⟨caught, events, _, frames, history⟩ := at_.runs submits (decided.mpr full)
    rw [number] at history
    refine ⟨1, events ++ [.started ⟨s.submissions⟩ label], label, fun k positive few => ?_, ?_, ?_⟩
    · rw [Nat.le_antisymm few positive, height, frames]
      simp only [base, List.length_cons, List.length_append]
      omega
    · rw [history, List.append_assoc]
    · exact List.mem_append_right _ List.mem_cons_self
  · have queued := Bool.eq_false_iff.mpr fun now => room (decided.mp now)
    obtain ⟨span, world, _⟩ := at_.queues submits queued
    exact ⟨span, at_.queues_quietly submits queued, _, world, (submit_gains ready queued).2⟩
  · rintro b admission rfl checks crowded
    obtain ⟨now, job, system⟩ := submit_declined (.body label body onBatch) checks
      ((batch_saturated_iff (countable.outstanding b admission rfl)).mpr crowded)
    obtain ⟨caught, _, world, frames, _⟩ := at_.runs submits now
    rw [job] at frames
    refine ⟨world.trans system, _, caught, frames, fun turns outcome span => ?_⟩
    obtain ⟨back, _, _, left, _⟩ := run_one_leave span.back
    rw [← run_add, ← run_add, ← Nat.add_assoc] at back left
    rw [← run_add] at left
    refine ⟨back, ?_⟩
    rw [left]
    rfl

/-- A host that gives a pool up to twelve workers and can start only the first of them. -/
def crowdedHost : Host :=
  { cores := 1
    maxThreads := 12
    reasons := fun _ index => if index = 0 then none else some "no more threads" }

/-- A script that hands three tasks to a batch on a pool that asked for twelve workers and got one,
before this worker takes its first turn. -/
def handing (turns : Nat) : Machine :=
  (Machine.load [] crowdedHost
    [.pool (.given "p") (.given 12) .missing (.given 1) .missing,
      .batch (.given "s") (.given "p") (.given 1) (.given false),
      .schedule (.given "s") (.given (.own "a" [])) .missing .missing,
      .schedule (.given "s") (.given (.own "b" [])) .missing .missing,
      .schedule (.given "s") (.given (.own "c" [])) .missing .missing]).run turns

/-- The second task is queued, and the batch turns the third one away: what counts is the one worker
that the pool has got. -/
theorem handing_admission :
    let op (label : String) : Op := .schedule (.given "s") (.given (.own label [])) .missing .missing
    let base : List Frame := [.program [], .cleanup]
    .logged (.poolStarted ⟨0⟩ "p" 1 12) ∈ (handing 9).history ∧
    ((handing 9).Arranged ∧ (handing 9).At .program [] [op "b", op "c"] [.cleanup] ∧
      (handing 9).world.Submits .driver (.batch ⟨0⟩) none (.batch ⟨0⟩ .checked)
        (.body "b" [] (some "s")) (op "b") ∧
      (handing 9).world.system.Countable (.batch ⟨0⟩ .checked) ∧
      ¬ (handing 9).world.system.TurnsAway (.batch ⟨0⟩ .checked) ∧
      (handing 9).Span (.program [op "c"] :: [.cleanup]) 2 (.returned .nothing)) ∧
    (handing 12).Arranged ∧ (handing 12).At .program [] [op "c"] [.cleanup] ∧
      (handing 12).world.Submits .driver (.batch ⟨0⟩) none (.batch ⟨0⟩ .checked)
        (.body "c" [] (some "s")) (op "c") ∧
      (handing 12).world.system.Countable (.batch ⟨0⟩ .checked) ∧
      (handing 12).world.system.IsOverfull ⟨0⟩ ∧ (handing 12).StartsAbove base ⟨2⟩ := by
  intro op base
  have arranged : ∀ turns, (handing turns).Arranged := fun turns =>
    ((Reached.load [] crowdedHost _).run turns).arranged
  have at_ : (handing 9).At .program [] [op "b", op "c"] [.cleanup] := ⟨rfl, rfl⟩
  have at_' : (handing 12).At .program [] [op "c"] [.cleanup] := ⟨rfl, rfl⟩
  have submits : (handing 9).world.Submits .driver (.batch ⟨0⟩) none (.batch ⟨0⟩ .checked)
      (.body "b" [] (some "s")) (op "b") := .schedule (.alone rfl) rfl rfl rfl rfl
  have submits' : (handing 12).world.Submits .driver (.batch ⟨0⟩) none (.batch ⟨0⟩ .checked)
      (.body "c" [] (some "s")) (op "c") := .schedule (.alone rfl) rfl rfl rfl rfl
  have countable : (handing 9).world.system.Countable (.batch ⟨0⟩ .checked) := by
    refine ⟨rfl, by decide, ?_⟩
    rintro _ _ ⟨⟩
    decide
  have countable' : (handing 12).world.system.Countable (.batch ⟨0⟩ .checked) := by
    refine ⟨rfl, by decide, ?_⟩
    rintro _ _ ⟨⟩
    decide
  have room : ¬ (handing 9).world.system.TurnsAway (.batch ⟨0⟩ .checked) := by decide
  have crowded : (handing 12).world.system.IsOverfull ⟨0⟩ := by decide
  obtain ⟨_, queues, _⟩ := Arranged.admission (arranged 9) at_ submits countable
  obtain ⟨runs, _⟩ := Arranged.admission (arranged 12) at_' submits' countable'
  exact ⟨List.mem_of_getElem? (i := 11) rfl,
    ⟨arranged 9, at_, submits, countable, room, (queues room).1⟩, arranged 12, at_', submits',
    countable', crowded, runs.mpr (.inl crowded)⟩

end Machine

end TaskPool
