import TaskPool.Proofs.TurnMoves

/-!
# What a turn does with tasks

For counting tasks most moves look alike: no job enters or leaves a queue, no task starts or ends.
`Scene.Shift` keeps of a move only what it does with jobs, with the tasks on the stack, with the
counts of outstanding tasks, and with the record of all this.
-/

namespace TaskPool

open TaskPool.System

inductive Role where
  /-- Carries out the body of the task. -/
  | runs (job : JobId)
  /-- Has to report the end of the task to a batch. -/
  | owes (job : JobId) (batch : BatchId)
  deriving DecidableEq

def Frame.role : Frame → Option Role
  | .body job .. => some (.runs job)
  | .settle job b => some (.owes job b)
  | _ => none

def roles (frames : List Frame) : List Role := frames.filterMap Frame.role

def Task.roles (task : Task) : List Role := .runs task.id :: task.batch.toList.map (.owes task.id)

inductive Mark where
  | submits (job : JobId)
  | starts (job : JobId)
  /-- The body of the job ended, or a panic left it. -/
  | ends (job : JobId)
  deriving DecidableEq

def Event.mark : Event → Option Mark
  | .submitted job .. => some (.submits job)
  | .started job _ => some (.starts job)
  | .ended job _ | .unwound job .. => some (.ends job)
  | _ => none

def marks (history : List Event) : List Mark := history.filterMap Event.mark

def System.outstanding (s : System Work) (b : BatchId) : Nat := (s.batch b).barrier.outstanding

/-- No job enters or leaves a queue, and no task is counted or discounted. -/
structure System.Steady (s s' : System Work) : Prop where
  jobs : s'.jobs.Perm s.jobs
  owed : ∀ b, s'.outstanding b = s.outstanding b
  count : s'.submissions = s.submissions

namespace System.Steady

variable {s s' : System Work} {p : PoolId} {b : BatchId}

theorem refl (s : System Work) : s.Steady s := ⟨.refl _, fun _ => rfl, rfl⟩

theorem trans {r : System Work} (first : s.Steady s') (second : s'.Steady r) : s.Steady r where
  jobs := second.jobs.trans first.jobs
  owed b := (second.owed b).trans (first.owed b)
  count := second.count.trans first.count

theorem modifyPool {f : Pool Work → Pool Work}
    (same : (f (s.pool p)).contents.Perm (s.pool p).contents) : s.Steady (s.modifyPool p f) :=
  ⟨jobs_modifyPool_perm same, fun _ => rfl, rfl⟩

theorem modifyBatch {f : Batch → Batch}
    (same : (f (s.batch b)).barrier.outstanding = (s.batch b).barrier.outstanding) :
    s.Steady (s.modifyBatch b f) :=
  ⟨.refl _, batch_modifyBatch_proj (·.barrier.outstanding) same, rfl⟩

theorem startPool (reasons : Nat → Option String) (config : PoolConfig) :
    s.Steady (s.startPool reasons config).2.1 where
  jobs := by
    simp only [System.startPool, System.jobs, List.flatMap_append]
    exact .of_eq (List.append_nil _)
  owed _ := rfl
  count := rfl

theorem issueToken : s.Steady (s.issueToken p).2.1 := by
  have registered := modifyPool (s := { s with tokens := s.tokens ++ [{ pool := p }] }) (p := p)
    (f := (·.register ⟨s.tokens.length⟩)) (.of_eq (Pool.contents_register _ _))
  exact ⟨registered.jobs, registered.owed, registered.count⟩

theorem appendBatch {new : Batch} (empty : new.barrier.outstanding = 0) :
    s.Steady { s with batches := s.batches ++ [new] } where
  jobs := .refl _
  owed b := by
    rcases batch_append_cases new b with ⟨_, same⟩ | ⟨last, same⟩
    · exact congrArg (·.barrier.outstanding) same
    · have unknown : s.batch b = default := batch_unknown (Nat.le_of_eq last.symm)
      simp only [outstanding, same, unknown, empty]
      rfl
  count := rfl

theorem makeBatch (single : Bool) (multiplier : Nat) :
    s.Steady (s.makeBatch p single multiplier).2.1 := by
  cases single with
  | true => exact issueToken.trans (appendBatch rfl)
  | false => exact appendBatch rfl

theorem releaseToken (t : TokenId) : s.Steady (s.releaseToken t).1 := by
  have released := modifyPool (s := s) (p := (s.token t).pool) (f := (·.release t))
    (Pool.release_perm t _)
  exact ⟨released.jobs, released.owed, released.count⟩

theorem deliver : s.Steady (s.deliver b).2 := by
  rw [deliver_system]
  exact modifyBatch (Barrier.outstanding_deliver _)

theorem closeBatch : s.Steady (s.closeBatch b).1 := by
  have ended : s.Steady (s.endBatch b) := deliver.trans (modifyBatch rfl)
  rw [closeBatch_system]
  cases (s.batch b).kind with
  | single t => exact ended.trans (releaseToken t)
  | multi => exact ended

theorem take {source : Source} {job : Job Work} (taken : s.take source = some (job, s')) :
    s.jobs.Perm (job :: s'.jobs) ∧ (∀ b, s'.outstanding b = s.outstanding b) ∧
      s'.submissions = s.submissions := by
  refine ⟨jobs_take taken, ?_⟩
  obtain ⟨_, _, _, _, _, rfl⟩ := take_loses taken
  exact ⟨fun _ => rfl, rfl⟩

end System.Steady

namespace Scene

inductive Shift (σ σ' : Scene) : Prop where
  | rests (steady : σ.system.Steady σ'.system) (roles : roles σ'.frames = roles σ.frames)
      (record : marks σ'.history = marks σ.history)
  | queues {task : Task} (fresh : task.id = ⟨σ.system.submissions⟩)
      (jobs : σ'.system.jobs.Perm (task.job :: σ.system.jobs))
      (owed : ∀ b, σ'.system.outstanding b =
        σ.system.outstanding b + if task.batch = some b then 1 else 0)
      (count : σ'.system.submissions = σ.system.submissions + 1)
      (roles : roles σ'.frames = roles σ.frames)
      (record : marks σ'.history = marks σ.history ++ [.submits task.id])
  | runs {task : Task} (fresh : task.id = ⟨σ.system.submissions⟩)
      (jobs : σ'.system.jobs.Perm σ.system.jobs)
      (owed : ∀ b, σ'.system.outstanding b =
        σ.system.outstanding b + if task.batch = some b then 1 else 0)
      (count : σ'.system.submissions = σ.system.submissions + 1)
      (roles : roles σ'.frames = task.roles ++ roles σ.frames)
      (record : marks σ'.history = marks σ.history ++ [.submits task.id, .starts task.id])
  | starts {task : Task} (jobs : σ.system.jobs.Perm (task.job :: σ'.system.jobs))
      (owed : ∀ b, σ'.system.outstanding b = σ.system.outstanding b)
      (count : σ'.system.submissions = σ.system.submissions)
      (roles : roles σ'.frames = task.roles ++ roles σ.frames)
      (record : marks σ'.history = marks σ.history ++ [.starts task.id])
  | ends {job} (system : σ'.system = σ.system)
      (roles : roles σ.frames = .runs job :: roles σ'.frames)
      (record : marks σ'.history = marks σ.history ++ [.ends job])
  | settles {job b} (jobs : σ'.system.jobs.Perm σ.system.jobs)
      (owed : ∀ c, σ'.system.outstanding c = σ.system.outstanding c - if b = c then 1 else 0)
      (count : σ'.system.submissions = σ.system.submissions)
      (roles : roles σ.frames = .owes job b :: roles σ'.frames)
      (record : marks σ'.history = marks σ.history)

variable {σ σ' : Scene} {opening : Opening}

/-! ## The record and the stack -/

@[simp] theorem marks_append (history events : List Event) :
    marks (history ++ events) = marks history ++ marks events :=
  List.filterMap_append

@[simp] theorem marks_notices (notices : List Notice) : marks (Event.ofNotices notices) = [] := by
  simp [marks, Event.ofNotices, Event.mark]

theorem marks_script {events : List Event} (script : ∀ event ∈ events, event.isScript) :
    marks events = [] := by
  apply List.filterMap_eq_nil_iff.mpr
  intro event member
  have told := script event member
  cases event <;> first | rfl | cases told

theorem marks_quiet {history events : List Event} (quiet : marks events = []) :
    marks (history ++ events) = marks history := by
  rw [marks_append, quiet, List.append_nil]

@[simp] theorem roles_append (above below : List Frame) :
    roles (above ++ below) = roles above ++ roles below :=
  List.filterMap_append

@[simp] theorem roles_task (task : Task) : roles task.frames = task.roles := by
  cases wrapped : task.batch <;>
    simp [Task.frames, Task.roles, roles, Frame.role, wrapped]

theorem roles_continues {frame frame' : Frame} (on : frame.Continues frame') (below : List Frame) :
    roles (frame' :: below) = roles (frame :: below) := by
  cases on <;> rfl

/-! ## Submissions -/

theorem outstanding_count {s : System Work} {wrapped : Option BatchId}
    (known : ∀ b, wrapped = some b → b.index < s.batches.length) (b : BatchId) :
    (s.count wrapped).outstanding b = s.outstanding b + if wrapped = some b then 1 else 0 := by
  cases wrapped with
  | none => rfl
  | some c =>
      by_cases same : c = b
      · subst same
        simp only [System.count, outstanding, if_true]
        have known := known c rfl
        rw [batch_modifyBatch_self (s := { s with submissions := s.submissions + 1 }) _ known]
        rfl
      · simp only [System.count, outstanding, Option.some.injEq, same, if_false]
        rw [batch_modifyBatch_of_ne _ same]
        rfl

/-- What a submission does with jobs, besides what becomes of this one. -/
theorem Lends.submits (registry : Registry σ.system σ.names) {entry : Entry}
    (lent : σ.Lends (entry.target.loans .share)) {work : Work} {task : Task}
    {made : Submission Work} (submits : σ.system.submit entry work = made)
    (job : made.job = task.job) :
    task.id = ⟨σ.system.submissions⟩ ∧
      (∀ b, made.system.outstanding b =
        σ.system.outstanding b + if task.batch = some b then 1 else 0) ∧
      made.system.submissions = σ.system.submissions + 1 ∧
      if made.route.runsNow then made.system.jobs.Perm σ.system.jobs
      else made.system.jobs.Perm (task.job :: σ.system.jobs) := by
  cases submits ▸ submit_submits (s := σ.system) entry work with
  | declined target this route system =>
      rw [job] at this
      have id : task.id = ⟨σ.system.submissions⟩ := congrArg Job.id this
      have raw : task.batch = none := congrArg Job.batch this
      rw [system, route, raw]
      exact ⟨id, outstanding_count (by simp), rfl, .refl _⟩
  | admitted admits =>
      obtain ⟨this, inlet⟩ := admits
      rw [job] at this
      have id : task.id = ⟨σ.system.submissions⟩ := congrArg Job.id this
      have wrapped : task.batch = entry.target.batch? := congrArg Job.batch this
      have known : ∀ b, task.batch = some b → b.index < σ.system.batches.length := by
        intro b is
        rw [wrapped] at is
        cases target : entry.target with
        | pool | token => simp [target, Target.batch?] at is
        | batch c =>
            rw [target] at is lent
            cases is
            exact lent.batch_known registry List.mem_cons_self
      rw [← wrapped] at this inlet
      rw [← this] at inlet
      refine ⟨id, ?_⟩
      rcases inlet with ⟨route, system⟩ | ⟨route, system⟩
      · rw [system, route]
        exact ⟨outstanding_count known, count_submissions _, .of_eq (count_jobs _)⟩
      · rw [system, route]
        refine ⟨outstanding_count known, count_submissions _, ?_⟩
        have live := lent.inlet_live registry
        have there : (σ.system.inletOf entry).1.index <
            (σ.system.count task.batch).pools.length := by
          rw [count_pools]
          exact pool_known (Stage.opened live)
        obtain ⟨others, old, new⟩ := jobs_modifyPool
          (·.push (σ.system.inletOf entry).2 task.job) there
        rw [count_pool] at old new
        rw [count_jobs] at old
        have once : ∀ t, (σ.system.inletOf entry).2 = .lane t →
            ((σ.system.pool (σ.system.inletOf entry).1).lanes.map (·.token)).count t = 1 := by
          intro t lane
          obtain ⟨opened, pool⟩ := lent.lane_open registry lane
          rw [pool]
          exact registry.count_lane opened
        have pushed := Pool.push_perm task.job once
        exact new.trans ((pushed.append_right others).trans (old.symm.cons task.job))

theorem outstanding_settle (s : System Work) (b : BatchId) (job : JobId)
    (panicked : Option Payload) (c : BatchId) :
    (s.settle b job panicked).1.outstanding c = s.outstanding c - if b = c then 1 else 0 := by
  rw [settle_system]
  by_cases same : b = c
  · subst same
    by_cases known : b.index < s.batches.length
    · simp only [outstanding, batch_modifyBatch_self _ known, if_true]
      exact Barrier.outstanding_settle panicked _
    · have none : s.outstanding b = 0 := by
        rw [outstanding, batch_unknown (Nat.le_of_not_lt known)]
        rfl
      rw [modifyBatch_unknown _ (Nat.le_of_not_lt known), none]
      simp
  · simp only [outstanding, batch_modifyBatch_of_ne _ same, same, if_false, Nat.sub_zero]

/-! ## Moves -/

theorem roles_opened {frame frame' : Frame} (on : frame.Continues frame') (push : List Frame)
    (loans : List Loan) (onFailure : OnFailure) (caught : Bool) (below : List Frame) :
    roles (push ++ .call loans onFailure caught :: frame' :: below) =
      roles push ++ roles (frame :: below) := by
  rw [roles_append, ← roles_continues on]
  rfl

theorem Opens.shift (opens : σ.Opens opening) (registry : Registry σ.system σ.names)
    (same : roles σ'.frames = roles opening.push ++ roles σ.frames)
    (system : σ'.system = opening.system) (history : σ'.history = σ.history ++ opening.events) :
    σ.Shift σ' := by
  have record : marks σ'.history = marks σ.history ++ marks opening.events := by
    rw [history, marks_append]
  have rests : σ.system.Steady opening.system → roles opening.push = [] →
      marks opening.events = [] → σ.Shift σ' := by
    intro steady none quiet
    refine .rests (system ▸ steady) ?_ (history ▸ marks_quiet quiet)
    rw [same, none]
    rfl
  cases opens with
  | rests | waits | triesToWait | sweeps => exact rests (.refl _) rfl rfl
  | @pauses _ pause _ kind =>
      refine rests (.refl _) ?_ rfl
      cases pause <;> first | rfl | cases kind
  | startsPool => exact rests (.startPool _ _) rfl (marks_notices _)
  | issuesToken => exact rests .issueToken rfl (marks_notices _)
  | makesBatch => exact rests (.makeBatch _ _) rfl (marks_notices _)
  | dropsToken => exact rests (.releaseToken _) rfl (marks_notices _)
  | dropsBatch => exact rests (.modifyBatch rfl) rfl rfl
  | dropsPool => exact rests (.modifyPool (.refl _)) rfl (marks_notices _)
  | queues lent submits job later =>
      obtain ⟨fresh, owed, count, jobs⟩ := lent.submits registry submits job
      rw [later] at jobs
      dsimp only at system
      rw [← system] at owed count jobs
      rw [marks_append, marks_notices] at record
      exact .queues fresh jobs owed count same record
  | runsInline lent submits job now =>
      obtain ⟨fresh, owed, count, jobs⟩ := lent.submits registry submits job
      rw [now] at jobs
      dsimp only at system
      rw [← system] at owed count jobs
      rw [roles_task] at same
      rw [marks_append, marks_notices] at record
      exact .runs fresh jobs owed count same record
  | executes _ taken =>
      obtain ⟨jobs, owed, count⟩ := Steady.take taken
      dsimp only at system
      rw [← system] at owed count jobs
      rw [roles_append, roles_task] at same
      exact .starts jobs owed count (same.trans (by simp [roles, Frame.role])) record

theorem Moves.shift (moves : σ.Moves σ') (sound : σ.Sound) : σ.Shift σ' := by
  cases moves with
  | advances top on quiet =>
      exact .rests (.refl _) (by rw [top, roles_continues on]) (marks_quiet (marks_script quiet))
  | opens top on opens =>
      refine opens.shift sound.registry ?_ rfl rfl
      rw [top]
      exact roles_opened on _ _ _ _ _
  | leaves top | finishes top | sweepEnds top => exact .rests (.refl _) (by rw [top]; rfl) rfl
  | @passes frame _ _ top kind =>
      refine .rests (.refl _) ?_ rfl
      rw [top]
      cases frame <;> first | rfl | simp [Frame.isPause] at kind
  | ends top => exact .ends rfl (by rw [top]; rfl) (marks_append _ _)
  | unwinds top => exact .ends rfl (by rw [top]; rfl) (marks_append _ _)
  | settles top =>
      refine .settles ?_ (outstanding_settle _ _ _ _) ?_ (by rw [top]; rfl)
        (marks_quiet (marks_notices _))
      · simp only [settle_system]
        exact .refl _
      · simp only [settle_system]
        rfl
  | contains top =>
      refine .rests (.refl _) (by rw [top]; rfl) (marks_quiet ?_)
      simp [marks, Event.mark]
  | sweeps top _ taken =>
      obtain ⟨jobs, owed, count⟩ := Steady.take taken
      refine .starts jobs owed count ?_ (marks_append _ _)
      rw [top, roles_append, roles_task]
      rfl
  | helps top _ _ taken =>
      obtain ⟨jobs, owed, count⟩ := Steady.take taken
      refine .starts jobs owed count ?_ (marks_append _ _)
      rw [top, roles_append, roles_task]
      rfl
  | drains top taken =>
      obtain ⟨jobs, owed, count⟩ := Steady.take taken
      refine .starts jobs owed count ?_ (marks_append _ _)
      rw [top, roles_append, roles_task]
      rfl
  | delivers top => exact .rests .deliver (by rw [top]; rfl) (marks_quiet rfl)
  | closesBatch top => exact .rests .closeBatch (by rw [top]; rfl) (marks_quiet (marks_notices _))
  | closesPool top =>
      exact .rests (.modifyPool (.refl _)) (by rw [top]; rfl) (marks_quiet (marks_notices _))

end Scene

end TaskPool
