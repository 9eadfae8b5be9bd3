import TaskPool.Proofs.BatchLine
import TaskPool.Proofs.CaughtPanics

/-!
# What a move does with the queues

A move appends one job to one queue, takes the head of one queue, or puts the lane of a released
token behind the shared queue. All other moves leave every queue as it is. What arrives in a queue
is put on record by the same move, and so is the start of a job that was taken.
-/

namespace TaskPool

open TaskPool.System

/-- The event tells neither that a job was queued or handed over, nor that one was started. -/
def Event.isQuiet : Event → Bool
  | .submitted _ _ (.queued ..) | .logged (.tokenReleased ..) | .started .. => false
  | _ => true

namespace System

variable {s s' : System Work} {p : PoolId} {t : TokenId}

/-! ## Changes of single queues -/

def SameQueues (s s' : System Work) : Prop :=
  ∀ p inlet, (s'.pool p).queue inlet = (s.pool p).queue inlet

namespace SameQueues

theorem refl (s : System Work) : s.SameQueues s := fun _ _ => rfl

theorem modifyPool {f : Pool Work → Pool Work}
    (kept : ∀ inlet, (f (s.pool p)).queue inlet = (s.pool p).queue inlet) :
    s.SameQueues (s.modifyPool p f) :=
  fun q inlet => pool_modifyPool_proj (·.queue inlet) (kept inlet) q

theorem startPool (reasons : Nat → Option String) (config : PoolConfig) :
    s.SameQueues (s.startPool reasons config).2.1 := by
  let holds (q : PoolId) (pool : Pool Work) : Prop :=
    ∀ inlet, pool.queue inlet = (s.pool q).queue inlet
  refine forall_pool_append holds (fun _ _ => rfl) fun inlet => ?_
  rw [pool_unknown (Nat.le_refl _)]
  cases inlet <;> rfl

theorem issueToken : s.SameQueues (s.issueToken p).2.1 :=
  fun q inlet => pool_issueToken (·.queue inlet) (fun _ => Pool.queue_register _ inlet) q

theorem makeBatch (single : Bool) (multiplier : Nat) :
    s.SameQueues (s.makeBatch p single multiplier).2.1 := by
  cases single with
  | true => exact issueToken
  | false => exact refl s

end SameQueues

theorem take_queue {source : Source} {job : Job Work}
    (once : ∀ p, ((s.pool p).lanes.map (·.token)).Nodup)
    (taken : s.take source = some (job, s')) :
    ∃ p inlet, (s.pool p).queue inlet = job :: (s'.pool p).queue inlet ∧
      ∀ q inlet', ¬(q = p ∧ inlet' = inlet) →
        (s'.pool q).queue inlet' = (s.pool q).queue inlet' := by
  obtain ⟨p, _, inlet, rest, loses, rfl⟩ := take_loses taken
  have known := pool_known_of_mem (loses.perm.mem_iff.mpr List.mem_cons_self)
  have here : (s.modifyPool p fun _ => rest).pool p = rest := pool_modifyPool_self _ known
  refine ⟨p, inlet, ?_, fun q inlet' other => ?_⟩
  · rw [here]
    rcases loses.queue (once p) inlet with ⟨_, front⟩ | ⟨apart, _⟩
    · exact front
    · exact absurd rfl apart
  · by_cases own : q = p
    · subst own
      rw [here]
      rcases loses.queue (once q) inlet' with ⟨same, _⟩ | ⟨_, kept⟩
      · exact absurd ⟨rfl, same⟩ other
      · exact kept
    · rw [pool_modifyPool_of_ne _ (Ne.symm own)]

theorem push_queue {inlet : Inlet} {job : Job Work} (known : p.index < s.pools.length)
    (once : ∀ t, inlet = .lane t → ((s.pool p).lanes.map (·.token)).count t = 1) (q : PoolId)
    (inlet' : Inlet) :
    ((s.modifyPool p (·.push inlet job)).pool q).queue inlet' =
      (s.pool q).queue inlet' ++ if q = p ∧ inlet' = inlet then [job] else [] := by
  by_cases own : q = p
  · subst own
    rw [pool_modifyPool_self _ known, Pool.queue_push job once]
    simp
  · rw [pool_modifyPool_of_ne _ (Ne.symm own)]
    simp [own]

/-- The lane of a released token goes behind the shared queue of its pool. -/
theorem releaseToken_queue (known : (s.token t).pool.index < s.pools.length) :
    ((s.releaseToken t).1.pool (s.token t).pool).queue .shared =
        (s.pool (s.token t).pool).queue .shared ++ (s.pool (s.token t).pool).queue (.lane t) ∧
      ((s.releaseToken t).1.pool (s.token t).pool).queue (.lane t) = [] ∧
      ∀ q inlet, ¬(q = (s.token t).pool ∧ (inlet = .shared ∨ inlet = .lane t)) →
        ((s.releaseToken t).1.pool q).queue inlet = (s.pool q).queue inlet := by
  have pools (q : PoolId) : (s.releaseToken t).1.pool q =
      (s.modifyPool (s.token t).pool (·.release t)).pool q := rfl
  refine ⟨?_, ?_, fun q inlet other => ?_⟩
  · rw [pools, pool_modifyPool_self _ known]
    rfl
  · rw [pools, pool_modifyPool_self _ known]
    simp [Pool.queue, Pool.waitingIn, Pool.release, Lane.contents]
  · rw [pools]
    by_cases own : q = (s.token t).pool
    · subst own
      rw [pool_modifyPool_self _ known]
      exact Pool.queue_release_of_ne (fun shared => other ⟨rfl, .inl shared⟩)
        fun lane => other ⟨rfl, .inr lane⟩
    · rw [pool_modifyPool_of_ne _ (Ne.symm own)]

end System

namespace Scene

variable {σ σ' : Scene} {opening : Opening}

/-- What a move does with the queues, and what it puts on record of that. -/
inductive Carries (σ σ' : Scene) : Prop where
  | rests {events} (queues : σ.system.SameQueues σ'.system)
      (record : σ'.history = σ.history ++ events) (quiet : ∀ event ∈ events, event.isQuiet = true)
  /-- A new job starts without having been queued. -/
  | runs {events} {task : Task} (fresh : task.id = ⟨σ.system.submissions⟩)
      (queues : σ.system.SameQueues σ'.system)
      (record : σ'.history = σ.history ++ events ++ [task.started])
      (quiet : ∀ event ∈ events, event.isQuiet = true)
  | enters {events} {task : Task} {p inlet} (fresh : task.id = ⟨σ.system.submissions⟩)
      (queues : ∀ q inlet', (σ'.system.pool q).queue inlet' =
        (σ.system.pool q).queue inlet' ++ if q = p ∧ inlet' = inlet then [task.job] else [])
      (opened : ∀ t, inlet = .lane t →
        (σ.system.token t).stage ≠ .closed ∧ (σ.system.token t).pool = p)
      (live : ∀ b, task.batch = some b → (σ'.system.batch b).stage ≠ .closed)
      (record : σ'.history =
        σ.history ++ events ++ [.submitted task.id task.batch (.queued p inlet)])
      (quiet : ∀ event ∈ events, event.isQuiet = true)
  | starts {task : Task} {p inlet}
      (front : (σ.system.pool p).queue inlet = task.job :: (σ'.system.pool p).queue inlet)
      (others : ∀ q inlet', ¬(q = p ∧ inlet' = inlet) →
        (σ'.system.pool q).queue inlet' = (σ.system.pool q).queue inlet')
      (record : σ'.history = σ.history ++ [task.started])
  | releases {events t p name moved} (opened : (σ.system.token t).stage ≠ .closed)
      (pool : (σ.system.token t).pool = p) (closed : (σ'.system.token t).stage = .closed)
      (gone : (σ'.system.pool p).queue (.lane t) = [])
      (shared : (σ'.system.pool p).queue .shared =
        (σ.system.pool p).queue .shared ++ (σ.system.pool p).queue (.lane t))
      (others : ∀ q inlet, ¬(q = p ∧ (inlet = .shared ∨ inlet = .lane t)) →
        (σ'.system.pool q).queue inlet = (σ.system.pool q).queue inlet)
      (record : σ'.history = σ.history ++ events ++ [.logged (.tokenReleased t name moved)])
      (quiet : ∀ event ∈ events, event.isQuiet = true)

/-! ## One lemma for each kind of change -/

theorem quiet_remarks {notices : List Notice} (remarks : ∀ notice ∈ notices, notice.isRemark = true) :
    ∀ event ∈ Event.ofNotices notices, event.isQuiet = true := by
  intro event member
  obtain ⟨notice, told, rfl⟩ := List.mem_map.mp member
  have remark := remarks notice told
  cases notice <;> first | rfl | cases remark

theorem Carries.take (registry : Registry σ.system σ.names) {source : Source} {task : Task}
    (taken : σ.system.take source = some (task.job, σ'.system))
    (record : σ'.history = σ.history ++ [task.started]) : σ.Carries σ' := by
  have once : ∀ p, ((σ.system.pool p).lanes.map (·.token)).Nodup := by
    intro p
    rw [registry.lanes]
    exact nodup_openTokens _ p
  obtain ⟨p, inlet, front, others⟩ := take_queue once taken
  exact .starts front others record

theorem Carries.submit (registry : Registry σ.system σ.names) {entry : Entry} {work : Work}
    {task : Task} {made : Submission Work} (lent : σ.Lends (entry.target.loans .share))
    (submits : σ.system.submit entry work = made) (job : made.job = task.job)
    (system : σ'.system = made.system)
    (record : σ'.history = σ.history ++ (Event.ofNotices made.notices ++
      .submitted task.id task.batch made.route ::
        if made.route.runsNow then [task.started] else [])) :
    σ.Carries σ' := by
  have fresh := (lent.submits registry submits job).1
  have quiet : ∀ event ∈ Event.ofNotices made.notices, event.isQuiet = true := by
    subst submits
    exact quiet_remarks (submit_remarks entry work)
  -- a job that is not queued is run at once
  have away (same : σ'.system.pools = σ.system.pools) (now : made.route.runsNow = true)
      (plain : (Event.submitted task.id task.batch made.route).isQuiet = true) : σ.Carries σ' := by
    rw [now] at record
    let told := Event.ofNotices made.notices ++ [.submitted task.id task.batch made.route]
    have record : σ'.history = σ.history ++ told ++ [task.started] := by
      simpa [told] using record
    refine .runs fresh (fun p inlet => ?_) record ?_
    · simp only [pool, same]
    · intro event member
      rcases List.mem_append.mp member with notice | own
      · exact quiet event notice
      · cases List.mem_singleton.mp own
        exact plain
  cases submits ▸ submit_submits (s := σ.system) entry work with
  | declined _ _ route declined =>
      refine away ?_ (by rw [route]; rfl) (by rw [route]; rfl)
      rw [system, declined, count_pools]
  | admitted admits =>
      obtain ⟨this, ⟨route, turned⟩ | ⟨route, pushed⟩⟩ := admits
      · refine away ?_ (by rw [route]; rfl) (by rw [route]; rfl)
        rw [system, turned, count_pools]
      · have wrapped : task.batch = entry.target.batch? :=
          congrArg Job.batch (job.symm.trans this)
        have live := lent.inlet_live registry
        have known : (σ.system.inletOf entry).1.index <
            (σ.system.count entry.target.batch?).pools.length := by
          rw [count_pools]
          exact pool_known (Stage.opened live)
        have once : ∀ t, (σ.system.inletOf entry).2 = .lane t →
            (((σ.system.count entry.target.batch?).pool (σ.system.inletOf entry).1).lanes.map
              (·.token)).count t = 1 := by
          intro t lane
          obtain ⟨opened, pool⟩ := lent.lane_open registry lane
          rw [count_pool, pool]
          exact registry.count_lane opened
        rw [← this, job] at pushed
        rw [route] at record
        have record : σ'.history = σ.history ++ Event.ofNotices made.notices ++
            [.submitted task.id task.batch
              (.queued (σ.system.inletOf entry).1 (σ.system.inletOf entry).2)] := by
          simpa [Route.runsNow] using record
        refine .enters fresh (fun q inlet => ?_) ?_ ?_ record quiet
        · rw [system, pushed, push_queue known once, count_pool]
        · intro t lane
          obtain ⟨opened, pool⟩ := lent.lane_open registry lane
          exact ⟨opened, pool.symm⟩
        · intro b is
          rw [wrapped] at is
          cases target : entry.target with
          | pool | token => simp [target, Target.batch?] at is
          | batch c =>
              rw [target] at is lent
              cases is
              obtain ⟨name, found⟩ := lent.named List.mem_cons_self
              have named : (σ.system.batch b).stage = .live :=
                registry.named name _ (Table.mem_of_find? found)
              have kept : (made.system.batch b).stage = (σ.system.batch b).stage := by
                rw [pushed, target]
                exact batch_modifyBatch_proj (s := { σ.system with
                  submissions := σ.system.submissions + 1 }) (·.stage) rfl b
              rw [system, kept, named]
              exact Stage.noConfusion

theorem Carries.release (registry : Registry σ.system σ.names) {s : System Work} {t : TokenId}
    {events : List Event} (opened : (σ.system.token t).stage ≠ .closed)
    (same : s.pools = σ.system.pools) (tokens : s.tokens = σ.system.tokens)
    (system : σ'.system = (s.releaseToken t).1)
    (record : σ'.history = σ.history ++ events ++ Event.ofNotices (s.releaseToken t).2)
    (quiet : ∀ event ∈ events, event.isQuiet = true) : σ.Carries σ' := by
  have token : s.token t = σ.system.token t := by simp only [System.token, tokens]
  have pool (p : PoolId) : s.pool p = σ.system.pool p := by simp only [System.pool, same]
  have known : (s.token t).pool.index < s.pools.length := by
    rw [token, same]
    exact pool_known (Stage.opened (registry.tokens t opened))
  obtain ⟨shared, gone, others⟩ := releaseToken_queue known
  have closed : (σ'.system.token t).stage = .closed := by
    by_contra still
    rw [system] at still
    exact ((token_releaseToken t t).2.mp still).2 rfl
  rw [← system] at shared gone others
  simp only [token, pool] at shared gone others
  exact .releases opened rfl closed gone shared others record quiet

theorem settle_quiet {b : BatchId} {job : JobId} {panicked : Option Payload} {s : System Work} :
    ∀ notice ∈ (s.settle b job panicked).2, (Event.logged notice).isQuiet = true := by
  cases panicked with
  | none => exact fun _ wrong => nomatch wrong
  | some payload =>
      intro notice told
      simp only [settle, List.mem_cons] at told
      rcases told with rfl | told
      · rfl
      · split at told
        · cases told
        · cases List.mem_singleton.mp told
          rfl

theorem Carries.closeBatch (sound : σ.Sound) {b : BatchId} {budget : Option Nat}
    {below : List Frame} (top : σ.frames = .waiting b budget .close :: below)
    (system : σ'.system = (σ.system.closeBatch b).1)
    (record : σ'.history = σ.history ++ Event.ofNotices (σ.system.closeBatch b).2) :
    σ.Carries σ' := by
  have closing : (σ.system.batch b).stage = .closing := dropped sound.custody top
  have ended : (σ.system.endBatch b).pools = σ.system.pools := by
    rw [endBatch, deliver_system]
    rfl
  have last : (Event.logged (σ.system.lastNotice b)).isQuiet = true := by
    unfold lastNotice
    cases (σ.system.batch b).barrier.pending <;> rfl
  rw [closeBatch_system] at system
  rw [closeBatch_notices] at record
  cases kind : (σ.system.batch b).kind with
  | multi =>
      rw [kind] at system record
      refine .rests (fun p inlet => ?_) record ?_
      · simp only [pool, system, ended]
      · simpa [Event.ofNotices] using last
  | single t =>
      rw [kind] at system record
      have opened := (sound.registry.owned b t kind).2.2 (closing ▸ Stage.noConfusion)
      have tokens : (σ.system.endBatch b).tokens = σ.system.tokens := by
        rw [endBatch, deliver_system]
        rfl
      have notices : ((σ.system.endBatch b).releaseToken t).2 = (σ.system.releaseToken t).2 := by
        simp only [releaseToken, token, pool, ended, tokens]
      have record : σ'.history = σ.history ++ [.logged (σ.system.lastNotice b)] ++
          Event.ofNotices ((σ.system.endBatch b).releaseToken t).2 := by
        rw [record, notices, Event.ofNotices, Event.ofNotices, List.map_cons, List.append_assoc]
        rfl
      exact .release sound.registry opened ended tokens system record (by simpa using last)

/-! ## Moves -/

theorem Opens.carries (opens : σ.Opens opening) (registry : Registry σ.system σ.names)
    (system : σ'.system = opening.system) (history : σ'.history = σ.history ++ opening.events) :
    σ.Carries σ' := by
  have rests (queues : σ.system.SameQueues opening.system)
      (quiet : ∀ event ∈ opening.events, event.isQuiet = true) : σ.Carries σ' :=
    .rests (system ▸ queues) history quiet
  cases opens with
  | rests | pauses | waits | triesToWait | sweeps | dropsBatch =>
      exact rests (.refl _) fun _ wrong => by cases wrong
  | startsPool =>
      exact rests (.startPool _ _) (startPool_events (fun _ _ _ _ => rfl) fun _ _ _ _ => rfl)
  | issuesToken => exact rests .issueToken (by simp [issueToken, Event.ofNotices, Event.isQuiet])
  | @makesBatch _ p single =>
      refine rests (.makeBatch _ _) ?_
      cases single <;> simp [makeBatch, issueToken, Event.ofNotices, Event.isQuiet]
  | dropsToken named =>
      have opened := (registry.named _ _ (Table.mem_of_find? named)).1
      have record := history
      rw [← List.append_nil σ.history] at record
      exact .release registry opened rfl rfl system record fun _ wrong => by cases wrong
  | dropsPool =>
      exact rests (.modifyPool fun inlet => by cases inlet <;> rfl)
        (by simp [beginClosingPool, Event.ofNotices, Event.isQuiet])
  | queues lent submits job later =>
      exact .submit registry lent submits job system (by rw [history, later]; rfl)
  | runsInline lent submits job now =>
      exact .submit registry lent submits job system (by rw [history, now]; rfl)
  | executes _ taken =>
      dsimp only at system
      exact .take registry (system ▸ taken) history

theorem Moves.carries (moves : σ.Moves σ') (sound : σ.Sound) : σ.Carries σ' := by
  have registry := sound.registry
  have alone (same : σ'.system = σ.system) (history : σ'.history = σ.history) : σ.Carries σ' :=
    .rests (same ▸ .refl _) (history.trans (List.append_nil _).symm) fun _ wrong => nomatch wrong
  cases moves with
  | advances _ _ quiet =>
      refine .rests (.refl _) rfl fun event member => ?_
      have told := quiet event member
      cases event <;> first | rfl | cases told
  | opens _ _ opens => exact opens.carries registry rfl rfl
  | leaves | passes | finishes | sweepEnds => exact alone rfl rfl
  | ends | unwinds => exact .rests (.refl _) rfl (by simp [Event.isQuiet])
  | settles =>
      refine .rests ?_ rfl fun event member => ?_
      · rw [settle_system]
        exact .refl _
      · obtain ⟨notice, told, rfl⟩ := List.mem_map.mp member
        exact settle_quiet notice told
  | contains => exact .rests (.refl _) rfl (by simp [Event.isQuiet])
  | sweeps _ _ taken => exact .take registry taken rfl
  | helps _ _ _ taken => exact .take registry taken rfl
  | drains _ taken => exact .take registry taken rfl
  | delivers =>
      refine .rests ?_ rfl (by simp [Event.isQuiet])
      rw [deliver_system]
      exact .refl _
  | closesBatch top => exact .closeBatch sound top rfl rfl
  | closesPool =>
      exact .rests (.modifyPool fun inlet => by cases inlet <;> rfl) rfl
        (by simp [closePool, Event.ofNotices, Event.isQuiet])

/-! ## Tokens stay closed -/

theorem tokens_submit (s : System Work) (entry : Entry) (work : Work) :
    (s.submit entry work).system.tokens = s.tokens := by
  have count (wrapped : Option BatchId) : (s.count wrapped).tokens = s.tokens := by
    cases wrapped <;> rfl
  cases submit_submits (s := s) entry work with
  | declined _ _ _ system => rw [system, count]
  | admitted admits =>
      obtain ⟨_, ⟨_, system⟩ | ⟨_, system⟩⟩ := admits
      · rw [system, count]
      · rw [system]
        exact count _

theorem tokens_take {s s' : System Work} {source : Source} {job : Job Work}
    (taken : s.take source = some (job, s')) : s'.tokens = s.tokens := by
  obtain ⟨_, _, _, _, _, rfl⟩ := take_loses taken
  rfl

theorem open_of_issueToken {s : System Work} {t : TokenId} {p : PoolId}
    (known : t.index < s.tokens.length)
    (opened : ((s.issueToken p).2.1.token t).stage ≠ .closed) : (s.token t).stage ≠ .closed := by
  rwa [token_issueToken known] at opened

theorem Moves.open_of (moves : σ.Moves σ') {t : TokenId} (known : t.index < σ.system.tokens.length)
    (opened : (σ'.system.token t).stage ≠ .closed) : (σ.system.token t).stage ≠ .closed := by
  have same {s : System Work} (tokens : s.tokens = σ.system.tokens)
      (opened : (s.token t).stage ≠ .closed) : (σ.system.token t).stage ≠ .closed := by
    simpa only [System.token, tokens] using opened
  cases moves with
  | advances | leaves | passes | finishes | ends | unwinds | contains | sweepEnds => exact opened
  | opens _ _ opens =>
      cases opens with
      | rests | pauses | waits | triesToWait | sweeps | startsPool | dropsBatch | dropsPool =>
          exact same rfl opened
      | issuesToken => exact open_of_issueToken known opened
      | @makesBatch _ p single =>
          cases single with
          | true => exact open_of_issueToken known opened
          | false => exact same rfl opened
      | dropsToken => exact ((token_releaseToken _ t).2.mp opened).1
      | queues _ submits | runsInline _ submits =>
          exact same (submits ▸ tokens_submit _ _ _) opened
      | executes _ taken => exact same (tokens_take taken) opened
  | settles => exact same (by rw [settle_system]; rfl) opened
  | sweeps _ _ taken => exact same (tokens_take taken) opened
  | helps _ _ _ taken => exact same (tokens_take taken) opened
  | drains _ taken => exact same (tokens_take taken) opened
  | delivers => exact same (by rw [deliver_system]; rfl) opened
  | @closesBatch b =>
      have ended : (σ.system.endBatch b).tokens = σ.system.tokens := by
        rw [endBatch, deliver_system]
        rfl
      rw [closeBatch_system] at opened
      cases kind : (σ.system.batch b).kind with
      | multi =>
          rw [kind] at opened
          exact same ended opened
      | single u =>
          rw [kind] at opened
          exact same ended ((token_releaseToken u t).2.mp opened).1
  | closesPool => exact same rfl opened

end Scene

end TaskPool
