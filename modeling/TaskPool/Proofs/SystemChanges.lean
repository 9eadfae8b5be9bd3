import TaskPool.Proofs.Queues
import TaskPool.Proofs.SoloRuns

/-!
# What the changes of a system do

Every change of a system is a change of one pool, one token or one batch, or makes a new one. The
objects are looked up by total functions, so what holds of every pool can be said of every number:
a number that was never given names a closed and empty pool.
-/

namespace TaskPool

theorem Stage.opened {stage : Stage} (live : stage = .live) : stage ≠ .closed :=
  fun closed => Stage.noConfusion (live.symm.trans closed)

/-- A task reports to the barrier: its panic, if there is one, is kept or discarded, and then it
retires. -/
def Barrier.settle (panicked : Option Payload) (b : Barrier) : Barrier :=
  match panicked with
  | none => b.retire
  | some payload => (b.keepFirst (Failure.ofPayload payload)).2.retire

@[simp] theorem Barrier.outstanding_settle (panicked : Option Payload) (b : Barrier) :
    (b.settle panicked).outstanding = b.outstanding - 1 := by
  cases panicked <;> simp [settle]

/-- The notice tells how a submission went, and nothing else. -/
def Notice.isRemark : Notice → Bool
  | .poolSaturated .. | .batchSaturated .. | .foreignToken .. => true
  | _ => false

namespace System

variable {s s' : System Work} {p q : PoolId} {t u : TokenId} {b c : BatchId}

theorem startPool_notices {holds : Notice → Prop} {reasons : Nat → Option String}
    {config : PoolConfig}
    (failed : ∀ p name index reason, holds (.workerFailed p name index reason))
    (started : ∀ p name workers requested, holds (.poolStarted p name workers requested)) :
    ∀ notice ∈ (s.startPool reasons config).2.2, holds notice := by
  intro notice member
  rcases List.mem_append.mp member with early | last
  · obtain ⟨index, _, told⟩ := List.mem_filterMap.mp early
    obtain ⟨reason, _, rfl⟩ := Option.map_eq_some_iff.mp told
    exact failed _ _ _ _
  · rw [List.mem_singleton.mp last]
    exact started _ _ _ _

theorem startPool_events {holds : Event → Prop} {reasons : Nat → Option String}
    {config : PoolConfig}
    (failed : ∀ p name index reason, holds (.logged (.workerFailed p name index reason)))
    (started : ∀ p name workers requested,
      holds (.logged (.poolStarted p name workers requested))) :
    ∀ event ∈ Event.ofNotices (s.startPool reasons config).2.2, holds event :=
  List.forall_mem_map.mpr (startPool_notices failed started)

/-- What is read in the log when a pool starts: an error for each worker that has no thread, and
then how many workers there are of those that were asked for. -/
theorem startPool_lines (reasons : Nat → Option String) (config : PoolConfig) :
    (s.startPool reasons config).2.2.map (·.line) =
      ((List.range config.workers).filterMap fun index => (reasons index).map fun reason =>
        ⟨.error, "Failed to spawn worker thread: " ++ reason,
          [("pool_name", .text config.name), ("index", .count index)]⟩) ++
      [⟨.info, "Thread pool started.",
        [("pool_name", .text config.name), ("num_threads", .count (config.started reasons).length),
          ("requested", .count config.workers)]⟩] := by
  simp only [startPool, List.map_append, List.map_filterMap, Option.map_map]
  rfl

/-! ## Looking up after a change -/

@[simp] theorem pool_modifyToken (f : Token → Token) : (s.modifyToken t f).pool p = s.pool p := rfl

theorem pool_unknown (unknown : s.pools.length ≤ p.index) : s.pool p = default := by
  simp [pool, List.getD_eq_getElem?_getD, List.getElem?_eq_none unknown]

theorem token_unknown (unknown : s.tokens.length ≤ t.index) : s.token t = default := by
  simp [token, List.getD_eq_getElem?_getD, List.getElem?_eq_none unknown]

theorem batch_unknown (unknown : s.batches.length ≤ b.index) : s.batch b = default := by
  simp [batch, List.getD_eq_getElem?_getD, List.getElem?_eq_none unknown]

theorem pool_known (found : (s.pool p).stage ≠ .closed) : p.index < s.pools.length :=
  Nat.lt_of_not_le fun unknown => found (by rw [pool_unknown unknown]; rfl)

theorem token_known (found : (s.token t).stage ≠ .closed) : t.index < s.tokens.length :=
  Nat.lt_of_not_le fun unknown => found (by rw [token_unknown unknown]; rfl)

theorem batch_known (found : (s.batch b).stage ≠ .closed) : b.index < s.batches.length :=
  Nat.lt_of_not_le fun unknown => found (by rw [batch_unknown unknown]; rfl)

theorem pool_known_of_mem {job : Job Work} (member : job ∈ (s.pool p).contents) :
    p.index < s.pools.length := by
  apply Nat.lt_of_not_le
  intro unknown
  rw [pool_unknown unknown] at member
  exact absurd member List.not_mem_nil

theorem modifyPool_unknown (f : Pool Work → Pool Work) (unknown : s.pools.length ≤ p.index) :
    s.modifyPool p f = s := by
  simp [modifyPool, List.modify_eq_self unknown]

theorem modifyBatch_unknown (f : Batch → Batch) (unknown : s.batches.length ≤ b.index) :
    s.modifyBatch b f = s := by
  simp [modifyBatch, List.modify_eq_self unknown]

/-- A change of one pool keeps what holds of every pool, if it keeps it for that one. -/
theorem forall_pool (holds : PoolId → Pool Work → Prop) {f : Pool Work → Pool Work}
    (all : ∀ q, holds q (s.pool q)) (kept : holds p (s.pool p) → holds p (f (s.pool p)))
    (q : PoolId) : holds q ((s.modifyPool p f).pool q) := by
  by_cases same : p = q
  · subst same
    by_cases known : p.index < s.pools.length
    · rw [pool_modifyPool_self f known]
      exact kept (all p)
    · rw [modifyPool_unknown f (by omega)]
      exact all p
  · rw [pool_modifyPool_of_ne f same]
    exact all q

theorem forall_batch (holds : BatchId → Batch → Prop) {f : Batch → Batch}
    (all : ∀ c, holds c (s.batch c)) (kept : holds b (s.batch b) → holds b (f (s.batch b)))
    (c : BatchId) : holds c ((s.modifyBatch b f).batch c) := by
  by_cases same : b = c
  · subst same
    by_cases known : b.index < s.batches.length
    · rw [batch_modifyBatch_self f known]
      exact kept (all b)
    · rw [modifyBatch_unknown f (by omega)]
      exact all b
  · rw [batch_modifyBatch_of_ne f same]
    exact all c

theorem pool_modifyPool_proj {α : Type} (proj : Pool Work → α) {f : Pool Work → Pool Work}
    (kept : proj (f (s.pool p)) = proj (s.pool p)) (q : PoolId) :
    proj ((s.modifyPool p f).pool q) = proj (s.pool q) :=
  forall_pool (fun q pool => proj pool = proj (s.pool q)) (fun _ => rfl)
    (fun _ => kept) q

theorem batch_modifyBatch_proj {α : Type} (proj : Batch → α) {f : Batch → Batch}
    (kept : proj (f (s.batch b)) = proj (s.batch b)) (c : BatchId) :
    proj ((s.modifyBatch b f).batch c) = proj (s.batch c) :=
  forall_batch (fun c batch => proj batch = proj (s.batch c)) (fun _ => rfl)
    (fun _ => kept) c

theorem barrier_mapBarrier (f : Barrier → Barrier) (known : b.index < s.batches.length) :
    ((s.modifyBatch b (·.mapBarrier f)).batch b).barrier = f (s.batch b).barrier :=
  congrArg Batch.barrier (batch_modifyBatch_self _ known)

theorem modifyBatch_congr {f g : Batch → Batch} (same : f (s.batch b) = g (s.batch b)) :
    s.modifyBatch b f = s.modifyBatch b g := by
  by_cases known : b.index < s.batches.length
  · simp only [batch, List.getD_eq_getElem?_getD, List.getElem?_eq_getElem known,
      Option.getD_some] at same
    simp [modifyBatch, List.modify_eq_take_cons_drop known, same]
  · rw [modifyBatch_unknown f (by omega), modifyBatch_unknown g (by omega)]

/-! ## The jobs of a system -/

def jobs (s : System Work) : List (Job Work) := s.pools.flatMap (·.contents)

theorem jobs_modifyPool (f : Pool Work → Pool Work) (known : p.index < s.pools.length) :
    ∃ others, s.jobs.Perm ((s.pool p).contents ++ others) ∧
      (s.modifyPool p f).jobs.Perm ((f (s.pool p)).contents ++ others) := by
  obtain ⟨before, pool, after, split, place, changed⟩ := List.exists_of_modify f known
  have found : s.pool p = pool := by
    simp [System.pool, List.getD_eq_getElem?_getD, split, ← place]
  refine ⟨before.flatMap (·.contents) ++ after.flatMap (·.contents), ?_, ?_⟩
  · simp only [jobs, split, found, List.flatMap_append, List.flatMap_cons]
    exact List.perm_append_comm_assoc _ _ _
  · simp only [jobs, modifyPool, changed, found, List.flatMap_append, List.flatMap_cons]
    exact List.perm_append_comm_assoc _ _ _

theorem jobs_modifyPool_perm {f : Pool Work → Pool Work}
    (same : (f (s.pool p)).contents.Perm (s.pool p).contents) :
    (s.modifyPool p f).jobs.Perm s.jobs := by
  by_cases known : p.index < s.pools.length
  · obtain ⟨others, old, new⟩ := jobs_modifyPool f known
    exact new.trans ((same.append_right others).trans old.symm)
  · rw [modifyPool_unknown f (by omega)]

theorem mem_jobs {job : Job Work} (member : job ∈ (s.pool p).contents) : job ∈ s.jobs := by
  refine List.mem_flatMap.mpr ⟨s.pool p, ?_, member⟩
  simp [pool, List.getD_eq_getElem?_getD, pool_known_of_mem member]

theorem mem_pool_of_mem_jobs {queued : Job Work}
    (member : queued ∈ s.jobs) : ∃ p, queued ∈ (s.pool p).contents := by
  obtain ⟨found, inside, member⟩ := List.mem_flatMap.mp member
  obtain ⟨i, below, same⟩ := List.getElem_of_mem inside
  refine ⟨⟨i⟩, ?_⟩
  simpa [pool, List.getD_eq_getElem?_getD, below, same] using member

/-! ## Taking a job -/

def reach (s : System Work) : Source → List PoolId
  | .pool receiver => [receiver]
  | .lane receiver t => [(s.token t).pool, receiver]

/-- To take a job is to let some pool that the source looks into lose it. -/
theorem take_loses {source : Source} {job : Job Work} (taken : s.take source = some (job, s')) :
    ∃ p ∈ s.reach source, ∃ inlet rest, (s.pool p).Loses inlet job rest ∧
      s' = s.modifyPool p fun _ => rest := by
  have fromPool : ∀ receiver, ((s.pool receiver).pop.map fun (job, rest) =>
      (job, s.modifyPool receiver fun _ => rest)) = some (job, s') →
      ∃ inlet rest, (s.pool receiver).Loses inlet job rest ∧
        s' = s.modifyPool receiver fun _ => rest := by
    intro receiver popped
    simp only [Option.map_eq_some_iff, Prod.mk.injEq] at popped
    obtain ⟨⟨_, rest⟩, popped, rfl, rfl⟩ := popped
    obtain ⟨inlet, loses⟩ := Pool.loses_of_pop popped
    exact ⟨inlet, rest, loses, rfl⟩
  cases source with
  | pool receiver =>
      obtain ⟨inlet, rest, loses, same⟩ := fromPool receiver taken
      exact ⟨receiver, by simp [reach], inlet, rest, loses, same⟩
  | lane receiver t =>
      simp only [take] at taken
      split at taken
      · next first rest popped =>
          simp only [Option.some.injEq, Prod.mk.injEq] at taken
          obtain ⟨rfl, rfl⟩ := taken
          exact ⟨(s.token t).pool, by simp [reach], .lane t, rest,
            Pool.loses_of_popLane popped, rfl⟩
      · obtain ⟨inlet, rest, loses, same⟩ := fromPool receiver taken
        exact ⟨receiver, by simp [reach], inlet, rest, loses, same⟩

theorem jobs_take {source : Source} {job : Job Work} (taken : s.take source = some (job, s')) :
    s.jobs.Perm (job :: s'.jobs) := by
  obtain ⟨p, _, inlet, rest, loses, rfl⟩ := take_loses taken
  have known : p.index < s.pools.length :=
    pool_known_of_mem (loses.perm.mem_iff.mpr List.mem_cons_self)
  obtain ⟨others, old, new⟩ := jobs_modifyPool (fun _ => rest) known
  exact old.trans ((loses.perm.append_right others).trans (new.symm.cons job))

/-! ## Submitting a job -/

/-- Counts one more submission, and one more outstanding task of the batch that it is wrapped for.
-/
def count (wrapped : Option BatchId) (s : System Work) : System Work :=
  let s := { s with submissions := s.submissions + 1 }
  match wrapped with
  | none => s
  | some b => s.modifyBatch b (·.mapBarrier .enlist)

@[simp] theorem count_pool (wrapped : Option BatchId) : (s.count wrapped).pool p = s.pool p := by
  cases wrapped <;> rfl

@[simp] theorem count_pools (wrapped : Option BatchId) : (s.count wrapped).pools = s.pools := by
  cases wrapped <;> rfl

@[simp] theorem count_jobs (wrapped : Option BatchId) : (s.count wrapped).jobs = s.jobs := by
  cases wrapped <;> rfl

@[simp] theorem count_submissions (wrapped : Option BatchId) :
    (s.count wrapped).submissions = s.submissions + 1 := by
  cases wrapped <;> rfl

/-- A job comes before the load check of a pool, or past it: it is turned away or queued. -/
def Admits (s : System Work) (p : PoolId) (inlet : Inlet) (job : Job Work)
    (made : Submission Work) : Prop :=
  made.job = job ∧
    (made.route = .inlineByPool p ∧ made.system = s ∨
      made.route = .queued p inlet ∧ made.system = s.modifyPool p (·.push inlet job))

theorem enqueue_admits (inlet : Inlet) (job : Job Work) :
    s.Admits p inlet job (s.enqueue p inlet job) :=
  ⟨rfl, .inr ⟨rfl, rfl⟩⟩

theorem enqueueVia_admits (receiver : PoolId) (job : Job Work) :
    s.Admits (s.token t).pool (.lane t) job (s.enqueueVia receiver t job) :=
  ⟨rfl, .inr ⟨rfl, rfl⟩⟩

theorem offer_admits (job : Job Work) : s.Admits p .shared job (s.offer p job) := by
  unfold offer
  split
  · exact ⟨rfl, .inl ⟨rfl, rfl⟩⟩
  · exact enqueue_admits .shared job

theorem offerVia_admits (receiver : PoolId) (job : Job Work) :
    s.Admits (s.token t).pool (.lane t) job (s.offerVia receiver t job) := by
  simp only [offerVia]
  split
  · exact ⟨rfl, .inl ⟨rfl, rfl⟩⟩
  · exact enqueueVia_admits receiver job

/-- The two outcomes of a submission. Either the batch declines to wrap the work, which is then run
raw; or the job, wrapped if it was submitted to a batch, comes before the one inlet that belongs to
the entry point. -/
inductive Submits (s : System Work) (entry : Entry) (work : Work) (made : Submission Work) :
    Prop where
  | declined {b : BatchId} (target : entry.target = .batch b)
      (job : made.job = ⟨⟨s.submissions⟩, none, work⟩) (route : made.route = .inlineByBatch b)
      (system : made.system = s.count none)
  | admitted (admits : (s.count entry.target.batch?).Admits (s.inletOf entry).1
      (s.inletOf entry).2 ⟨⟨s.submissions⟩, entry.target.batch?, work⟩ made)

theorem submit_submits (entry : Entry) (work : Work) :
    s.Submits entry work (s.submit entry work) := by
  cases entry with
  | pool receiver forced =>
      cases forced with
      | true => exact .admitted (enqueue_admits _ _)
      | false => exact .admitted (offer_admits _)
  | token receiver t forced =>
      cases forced with
      | true => exact .admitted (enqueueVia_admits _ _)
      | false => exact .admitted (offerVia_admits _ _)
  | batch b admission =>
      simp only [submit, submitToBatch]
      split
      · exact .declined rfl rfl rfl rfl
      · refine .admitted ?_
        simp only [inletOf, Entry.target, Target.batch?, wrap]
        have kind : ({ s with submissions := s.submissions + 1 } : System Work).batch b =
          s.batch b := rfl
        rw [kind]
        cases (s.batch b).kind with
        | single t =>
            cases admission with
            | checked => exact offerVia_admits _ _
            | ownCheck | forced => exact enqueueVia_admits _ _
        | multi =>
            cases admission with
            | checked => exact offer_admits _
            | ownCheck | forced => exact enqueue_admits _ _

theorem offer_remarks (job : Job Work) :
    ∀ notice ∈ (s.offer p job).notices, notice.isRemark = true := by
  unfold offer
  split <;> simp [turnAway, enqueue, Notice.isRemark]

theorem enqueueVia_remarks (receiver : PoolId) (job : Job Work) :
    ∀ notice ∈ (s.enqueueVia receiver t job).notices, notice.isRemark = true := by
  simp only [enqueueVia]
  split <;> simp [Notice.isRemark]

theorem offerVia_remarks (receiver : PoolId) (job : Job Work) :
    ∀ notice ∈ (s.offerVia receiver t job).notices, notice.isRemark = true := by
  simp only [offerVia]
  split
  · simp [turnAway, Notice.isRemark]
  · exact enqueueVia_remarks receiver job

/-- A submission logs nothing but that it finds something saturated, or a token of another pool. -/
theorem submit_remarks (entry : Entry) (work : Work) :
    ∀ notice ∈ (s.submit entry work).notices, notice.isRemark = true := by
  cases entry with
  | pool receiver forced =>
      cases forced with
      | true => exact fun _ wrong => nomatch wrong
      | false => exact offer_remarks _
  | token receiver t forced =>
      cases forced with
      | true => exact enqueueVia_remarks _ _
      | false => exact offerVia_remarks _ _
  | batch b admission =>
      simp only [submit, submitToBatch]
      split
      · simp [Notice.isRemark]
      · split
        · exact offerVia_remarks _ _
        · exact enqueueVia_remarks _ _
        · exact offer_remarks _
        · exact fun _ wrong => nomatch wrong

/-! ## Settling, delivering and closing -/

theorem settle_system (job : JobId) (panicked : Option Payload) :
    (s.settle b job panicked).1 = s.modifyBatch b (·.mapBarrier (·.settle panicked)) := by
  cases panicked with
  | none => rfl
  | some payload => exact modifyBatch_congr rfl

theorem deliver_failure : (s.deliver b).1 = (s.batch b).barrier.pending :=
  Barrier.deliver_fst _

theorem deliver_system :
    (s.deliver b).2 = s.modifyBatch b (·.mapBarrier (·.deliver.2)) :=
  modifyBatch_congr rfl

theorem deliver_nothing (nothing : (s.deliver b).1 = none) : (s.deliver b).2 = s := by
  have pending : (s.batch b).barrier.pending = none := deliver_failure.symm.trans nothing
  have barrier : (s.batch b).barrier.deliver.2 = (s.batch b).barrier := by
    simp only [Barrier.deliver, Barrier.take, pending]
    rw [← pending]
  have same : (s.batch b).mapBarrier (·.deliver.2) = id (s.batch b) := by
    rw [Batch.mapBarrier, barrier]
    rfl
  rw [deliver_system, modifyBatch_congr same, modifyBatch, List.modify_id]

theorem releaseToken_system :
    (s.releaseToken t).1 = (s.modifyPool (s.token t).pool (·.release t)).modifyToken t
      ({ · with stage := .closed }) := rfl

/-- Delivers the last failure of a batch and ends its stage. -/
def endBatch (b : BatchId) (s : System Work) : System Work :=
  (s.deliver b).2.modifyBatch b ({ · with stage := .closed })

/-- Closing a batch ends its stage first, as far as the outcome goes, and then releases the token
that it owns. -/
theorem closeBatch_system :
    (s.closeBatch b).1 =
      match (s.batch b).kind with
      | .single t => ((s.endBatch b).releaseToken t).1
      | .multi => s.endBatch b := by
  simp only [closeBatch]
  cases (s.batch b).kind <;> rfl

/-- What is read in the log when a task ends with a panic: an error, and a warning as well if
the place of the first failure is taken. -/
theorem settle_lines (job : JobId) (payload : Payload) :
    (s.settle b job (some payload)).2.map (·.line) =
      let fields : List (String × Field) := [("pool_name", .text (s.poolOf b).name)]
      ⟨.error, "Task panicked during execution.", fields⟩ ::
        if (s.batch b).barrier.claimed then
          [⟨.warn, "Discarding task panic, an earlier failure is already pending: " ++
            ("Task panicked during execution: " ++ payload.message), fields⟩]
        else [] := by
  cases claimed : (s.batch b).barrier.claimed <;>
    simp only [settle, Barrier.keepFirst, Barrier.claim, claimed] <;> rfl

/-- What is read in the log when a batch is closed: the failure that nobody asked for, or that there
was none, and then that the token of the batch was released, if it owned one. -/
theorem closeBatch_lines :
    (s.closeBatch b).2.map (·.line) =
      let name := ("pool_name", Field.text (s.poolOf b).name)
      let kind (label : String) := ("kind", Field.text label)
      let outcome (label : String) : Line :=
        match (s.batch b).barrier.pending with
        | none => ⟨.debug, "Task set dropped after all tasks completed.", [name, kind label]⟩
        | some failure =>
            ⟨.error, "Task set dropped with an unobserved task failure: " ++
              ("Task panicked during execution: " ++ failure.message), [name, kind label]⟩
      match (s.batch b).kind with
      | .single t =>
          let issuer := s.pool (s.token t).pool
          [outcome "TaskSet", ⟨.trace, "Producer token released.",
            [("pool_name", .text issuer.name), ("moved", .count (issuer.waitingIn t).length)]⟩]
      | .multi => [outcome "ConcurrentTaskSet"] := by
  simp only [closeBatch, deliver_failure]
  cases (s.batch b).barrier.pending <;> cases (s.batch b).kind <;> rfl

theorem endBatch_kind : ((s.endBatch b).batch c).kind = (s.batch c).kind := by
  rw [endBatch, batch_modifyBatch_proj (·.kind) rfl, deliver_system,
    batch_modifyBatch_proj (·.kind) rfl]

theorem endBatch_stage (known : b.index < s.batches.length) :
    ((s.endBatch b).batch b).stage = .closed := by
  have known' : b.index < (s.deliver b).2.batches.length := by
    rw [deliver_system]
    simpa only [modifyBatch, List.length_modify] using known
  rw [endBatch, batch_modifyBatch_self _ known']

theorem closeBatch_stage (known : b.index < s.batches.length) :
    ((s.closeBatch b).1.batch b).stage = .closed := by
  rw [closeBatch_system]
  cases (s.batch b).kind with
  | single t => exact endBatch_stage known
  | multi => exact endBatch_stage known

theorem closePool_system (leftover : Nat) :
    (s.closePool p leftover).1 = s.modifyPool p ({ · with stage := .closed }) := rfl

end System

end TaskPool
