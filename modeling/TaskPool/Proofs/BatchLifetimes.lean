import TaskPool.Proofs.CaughtPanics
import TaskPool.Proofs.ClosedBatches

/-!
# No task outlives its batch

A wrapped task that waits or runs is outstanding, and nothing is outstanding of a closed batch. So
its batch is live, or it is closing, and then the last wait of its drop goes on. This is why the
token of a batch leaves nothing behind when it is released, and why the closing of a pool finds raw
jobs only: all batches of the pool are closed by then.
-/

namespace TaskPool

open TaskPool.System

/-! ## What is closing is being closed -/

namespace System

variable {s s' : System Work} {object : Object} {b : BatchId}

theorem closing_of_alike (alike : s.Alike s') (closing : s'.Closing object) :
    s.Closing object := by
  cases object with
  | pool p => exact (alike.stages p).symm.trans closing
  | batch b => exact (alike.batches b).2.2.symm.trans closing
  | commonPool | token => exact closing

theorem closing_of_releaseToken {t : TokenId} (closing : (s.releaseToken t).1.Closing object) :
    s.Closing object := by
  cases object with
  | pool p => exact (pool_releaseToken (·.stage) (fun _ => rfl) p).symm.trans closing
  | batch | commonPool | token => exact closing

theorem closing_of_issueToken {p : PoolId} (closing : (s.issueToken p).2.1.Closing object) :
    s.Closing object := by
  cases object with
  | pool q => exact (pool_issueToken (·.stage) (fun _ => rfl) q).symm.trans closing
  | batch | commonPool | token => exact closing

theorem closing_of_appendBatch {new : Batch} (live : new.stage = .live)
    (closing : ({ s with batches := s.batches ++ [new] } : System Work).Closing object) :
    s.Closing object := by
  cases object with
  | batch b =>
      exact forall_batch_append
        (fun b batch => batch.stage = .closing → (s.batch b).stage = .closing) (fun _ same => same)
        (fun wrong => Stage.noConfusion (live.symm.trans wrong)) b closing
  | pool | commonPool | token => exact closing

theorem closing_of_closeBatch (known : b.index < s.batches.length)
    (closing : (s.closeBatch b).1.Closing object) : s.Closing object ∧ object ≠ .batch b := by
  have other : object ≠ .batch b := by
    rintro rfl
    exact Stage.noConfusion ((closeBatch_stage known).symm.trans closing)
  have ended : (s.endBatch b).Closing object := by
    rw [closeBatch_system] at closing
    cases kind : (s.batch b).kind with
    | multi => rwa [kind] at closing
    | single t =>
        rw [kind] at closing
        exact closing_of_releaseToken closing
  refine ⟨closing_of_alike (.deliver s b) ?_, other⟩
  cases object with
  | batch c =>
      have different : b ≠ c := fun same => other (congrArg Object.batch same.symm)
      exact (congrArg Batch.stage (batch_modifyBatch_of_ne _ different)).symm.trans ended
  | pool | commonPool | token => exact ended

theorem closing_of_closePool {p : PoolId} (leftover : Nat) (known : p.index < s.pools.length)
    (closing : (s.closePool p leftover).1.Closing object) :
    s.Closing object ∧ object ≠ .pool p := by
  rw [closePool_system] at closing
  have other : object ≠ .pool p := by
    rintro rfl
    have closed := congrArg Pool.stage
      (pool_modifyPool_self (s := s) ({ · with stage := .closed }) known)
    exact Stage.noConfusion (closed.symm.trans closing)
  refine ⟨?_, other⟩
  cases object with
  | pool q =>
      have different : p ≠ q := fun same => other (congrArg Object.pool same.symm)
      exact (congrArg Pool.stage (pool_modifyPool_of_ne _ different)).symm.trans closing
  | batch | commonPool | token => exact closing

end System

namespace Scene

variable {σ σ' : Scene} {opening : Opening} {object : Object} {b : BatchId}

theorem Opens.closing_of (opens : σ.Opens opening) (registry : Registry σ.system σ.names)
    (closing : opening.system.Closing object) :
    σ.system.Closing object ∨ object ∈ closings opening.push := by
  cases opens with
  | rests | pauses | waits | triesToWait | sweeps => exact .inl closing
  | @startsPool _ reasons config =>
      left
      cases object with
      | pool p =>
          exact forall_pool_append
            (fun p pool => pool.stage = .closing → (σ.system.pool p).stage = .closing)
            (fun _ same => same) (fun wrong => absurd wrong (by simp [Pool.start])) p closing
      | batch | commonPool | token => exact closing
  | issuesToken => exact .inl (closing_of_issueToken closing)
  | @makesBatch _ p single =>
      left
      cases single with
      | true => exact closing_of_issueToken (closing_of_appendBatch rfl closing)
      | false => exact closing_of_appendBatch rfl closing
  | dropsToken => exact .inl (closing_of_releaseToken closing)
  | @dropsBatch _ b =>
      cases object with
      | batch c =>
          by_cases same : c = b
          · exact .inr (List.mem_singleton.mpr (congrArg Object.batch same))
          · left
            have kept := batch_modifyBatch_of_ne (s := σ.system) ({ · with stage := .closing })
              (Ne.symm same)
            exact (congrArg Batch.stage kept).symm.trans closing
      | pool | commonPool | token => exact .inl closing
  | @dropsPool _ p =>
      cases object with
      | pool q =>
          by_cases same : q = p
          · exact .inr (List.mem_singleton.mpr (congrArg Object.pool same))
          · left
            have kept := pool_modifyPool_of_ne (s := σ.system) ({ · with stage := .closing })
              (Ne.symm same)
            exact (congrArg Pool.stage kept).symm.trans closing
      | batch | commonPool | token => exact .inl closing
  | queues lent submits => exact .inl (closing_of_alike (submits ▸ lent.alike registry _) closing)
  | runsInline lent submits =>
      exact .inl (closing_of_alike (submits ▸ lent.alike registry _) closing)
  | executes _ taken => exact .inl (closing_of_alike (.take taken) closing)

def Attended (σ : Scene) : Prop := ∀ object, σ.system.Closing object → object ∈ closings σ.frames

theorem Moves.attended (moves : σ.Moves σ') (sound : σ.Sound) (attended : σ.Attended) :
    σ'.Attended := by
  intro object closing
  have before := attended object
  cases moves with
  | advances top on =>
      have inside := before closing
      rw [top, closings_cons, on.closing?.1] at inside
      rw [closings_cons, on.closing?.2]
      exact inside
  | @opens frame frame' below opening onFailure caught top on opens =>
      rw [closings_append]
      rcases opens.closing_of sound.registry closing with old | new
      · have inside := before old
        rw [top, closings_cons, on.closing?.1] at inside
        rw [closings_cons, closings_cons, on.closing?.2]
        exact List.mem_append_right _ inside
      · exact List.mem_append_left _ new
  | leaves top | finishes top | ends top | unwinds top | contains top | sweepEnds top =>
      have inside := before closing
      rwa [top] at inside
  | @passes frame _ _ top kind =>
      have inside := before closing
      rw [top, closings_cons] at inside
      cases frame <;> first | exact inside | simp [Frame.isPause] at kind
  | settles top =>
      have inside := before (closing_of_alike (.settle _ _ _ _) closing)
      rwa [top] at inside
  | sweeps top _ taken =>
      have inside := before (closing_of_alike (.take taken) closing)
      rw [top] at inside
      rwa [closings_append, Task.frames_closings]
  | @helps _ _ goal _ _ _ top _ _ taken =>
      have inside := before (closing_of_alike (.take taken) closing)
      rw [top] at inside
      rw [closings_append, Task.frames_closings]
      cases goal <;> exact inside
  | drains top taken =>
      have inside := before (closing_of_alike (.take taken) closing)
      rw [top] at inside
      rwa [closings_append, Task.frames_closings]
  | @delivers _ _ goal _ top asked =>
      have inside := before (closing_of_alike (.deliver _ _) closing)
      rw [top] at inside
      cases goal <;> first | exact inside | exact absurd rfl asked
  | @closesBatch b _ _ top =>
      have known : b.index < σ.system.batches.length :=
        batch_known fun closed =>
          Stage.noConfusion (closed.symm.trans (dropped sound.custody top))
      obtain ⟨old, other⟩ := closing_of_closeBatch known closing
      have inside := before old
      rw [top] at inside
      exact (List.mem_cons.mp inside).resolve_left other
  | @closesPool p _ leftover _ top =>
      have known : p.index < σ.system.pools.length := by
        have closing : σ.system.Closing (.pool p) :=
          sound.custody.closing _ (by simp [top, Frame.closing?])
        exact pool_known fun closed => Stage.noConfusion (closed.symm.trans closing)
      obtain ⟨old, other⟩ := closing_of_closePool leftover known closing
      have inside := before old
      rw [top] at inside
      exact (List.mem_cons.mp inside).resolve_left other

/-! ## Batches with tasks -/

/-- The batch is live, or the last wait of its drop goes on. -/
def Attends (σ : Scene) (b : BatchId) : Prop :=
  (σ.system.batch b).stage = .live ∨
    (σ.system.batch b).stage = .closing ∧ ∃ budget, .waiting b budget .close ∈ σ.frames

/-- The last wait of a drop goes on as long as its batch is closing. -/
theorem Attended.last_wait (attended : σ.Attended) (closing : (σ.system.batch b).stage = .closing) :
    ∃ budget, .waiting b budget .close ∈ σ.frames := by
  obtain ⟨frame, member, closes⟩ := List.mem_filterMap.mp (attended (.batch b) closing)
  cases frame with
  | waiting c budget goal =>
      cases goal with
      | close =>
          cases closes
          exact ⟨budget, member⟩
      | wait | tryWait => cases closes
  | _ => cases closes

theorem attends_of_outstanding (attended : σ.Attended) (settled : σ.system.Settled)
    (counted : 0 < σ.system.outstanding b) : σ.Attends b := by
  cases stage : (σ.system.batch b).stage with
  | live => exact .inl stage
  | closing => exact .inr ⟨stage, attended.last_wait stage⟩
  | closed => exact absurd (settled b stage).1 (Nat.ne_of_gt counted)

theorem home_live (sound : σ.Sound) (balanced : σ.Balanced) (settled : σ.system.Settled)
    {p : PoolId} {inlet : Inlet} {job : Job Work}
    (member : job ∈ (σ.system.pool p).contents)
    (filing : Filing σ.system σ.history p inlet job) (wrapped : job.batch = some b) :
    (σ.system.pool p).stage = .live := by
  have counted := balanced.awaits member wrapped
  have opened : (σ.system.batch b).stage ≠ .closed :=
    fun closed => Nat.ne_of_gt counted (settled b closed).1
  exact (filing.home b wrapped).2 ▸ sound.registry.batches b opened

theorem lane_empty (filed : Filed σ.system σ.history) (balanced : σ.Balanced) {p : PoolId}
    {t : TokenId} (owns : (σ.system.batch b).kind = .single t)
    (clear : σ.system.outstanding b = 0) : (σ.system.pool p).waitingIn t = [] := by
  apply List.eq_nil_iff_forall_not_mem.mpr
  intro job member
  have filing : Filing σ.system σ.history p (.lane t) job := (filed p).of_queue member
  have inside :=
    Pool.mem_contents_of_queue (show job ∈ (σ.system.pool p).queue (.lane t) from member)
  exact Nat.ne_of_gt (balanced.awaits inside (filing.own b t rfl owns)) clear

end Scene

/-! ## What is on record of tokens -/

/-- What the record says of a token that a batch owns: its release moved nothing, and no raw job was
queued through it. -/
def Event.Respects (s : System Work) : Event → Prop
  | .logged (.tokenReleased t _ moved) =>
    t.index < s.tokens.length ∧ ∀ b, (s.batch b).kind = .single t → moved = 0
  | .submitted _ none (.queued _ (.lane t)) =>
    t.index < s.tokens.length ∧ ∀ b, (s.batch b).kind ≠ .single t
  | _ => True

/-- What holds of the record goes on to hold, since no batch comes to own an old token. -/
theorem Event.Respects.grows {s s' : System Work} {event : Event} (respects : event.Respects s)
    (grows : s.Grows s') : event.Respects s' := by
  unfold Respects at respects ⊢
  split at respects
  · next t _ moved =>
      refine ⟨(grows.tokens t respects.1).1, fun b owns => respects.2 b ?_⟩
      exact grows.owns b t respects.1 owns
  · next t =>
      refine ⟨(grows.tokens t respects.1).1, fun b owns => respects.2 b ?_⟩
      exact grows.owns b t respects.1 owns
  · trivial

namespace Scene

variable {σ σ' : Scene} {opening : Opening} {b : BatchId}

theorem Lends.respects (registry : Registry σ.system σ.names) {entry : Entry} {work : Work}
    (lent : σ.Lends (entry.target.loans .share)) {task : Task} {made : Submission Work}
    (submits : σ.system.submit entry work = made) (job : made.job = task.job) :
    (Event.submitted task.id task.batch made.route).Respects σ.system := by
  cases submits ▸ submit_submits (s := σ.system) entry work with
  | declined _ _ route => simp [route, Event.Respects]
  | admitted admits =>
      obtain ⟨this, ⟨route, _⟩ | ⟨route, _⟩⟩ := admits
      · simp [route, Event.Respects]
      · have wrapped : task.batch = entry.target.batch? :=
          congrArg Job.batch (job.symm.trans this)
        rw [wrapped, route]
        cases entry with
        | pool => trivial
        | batch => trivial
        | token receiver t =>
            have nameable := lent.nameable registry ⟨.token t, .use⟩
              (List.mem_cons_of_mem _ List.mem_cons_self)
            exact ⟨token_known nameable.1, nameable.2⟩

theorem Opens.respects (opens : σ.Opens opening) (registry : Registry σ.system σ.names) :
    ∀ event ∈ opening.events, event.Respects σ.system := by
  cases opens with
  | rests | pauses | waits | triesToWait | sweeps | dropsBatch => exact fun _ wrong => nomatch wrong
  | startsPool => exact startPool_events (fun _ _ _ _ => trivial) fun _ _ _ _ => trivial
  | issuesToken | dropsPool =>
      simp [issueToken, beginClosingPool, Event.ofNotices, Event.Respects]
  | @makesBatch _ p single =>
      cases single <;> simp [makeBatch, issueToken, Event.ofNotices, Event.Respects]
  | dropsToken named =>
      obtain ⟨opened, disowned⟩ := registry.named _ _ (Table.mem_of_find? named)
      intro event member
      cases List.mem_singleton.mp member
      exact ⟨token_known opened, fun b owns => absurd owns (disowned b)⟩
  | queues lent submits job | runsInline lent submits job =>
      intro event member
      rcases List.mem_append.mp member with notice | own
      · obtain ⟨told, remarked, rfl⟩ := List.mem_map.mp notice
        have remark := submit_remarks _ _ told (submits ▸ remarked)
        cases told <;> trivial
      · simp only [List.mem_cons, List.not_mem_nil, or_false] at own
        rcases own with rfl | rfl <;> first | exact lent.respects registry submits job | trivial
  | executes =>
      intro event member
      cases List.mem_singleton.mp member
      trivial

theorem respects_closeBatch (sound : σ.Sound) (balanced : σ.Balanced)
    (clear : σ.system.outstanding b = 0) :
    ∀ event ∈ Event.ofNotices (σ.system.closeBatch b).2, event.Respects σ.system := by
  intro event member
  obtain ⟨notice, told, rfl⟩ := List.mem_map.mp member
  rw [closeBatch_notices] at told
  rcases List.mem_cons.mp told with report | released
  · rw [report, lastNotice]
    cases (σ.system.batch b).barrier.pending <;> trivial
  · cases kind : (σ.system.batch b).kind with
    | multi =>
        rw [kind] at released
        cases released
    | single t =>
        rw [kind] at released
        cases List.mem_singleton.mp released
        refine ⟨(sound.registry.owned b t kind).1, fun _ _ => ?_⟩
        exact congrArg List.length (lane_empty sound.filed balanced kind clear)

theorem Moves.respects (moves : σ.Moves σ') (sound : σ.Sound) (balanced : σ.Balanced)
    (respects : ∀ event ∈ σ.history, event.Respects σ.system) :
    ∀ event ∈ σ'.history, event.Respects σ'.system := by
  have grows := moves.grows sound.registry
  have added : ∀ {events}, σ'.history = σ.history ++ events →
      (∀ event ∈ events, event.Respects σ.system) →
      ∀ event ∈ σ'.history, event.Respects σ'.system := by
    intro events history new event member
    rw [history] at member
    exact ((List.mem_append.mp member).elim (respects event) (new event)).grows grows
  cases moves with
  | advances _ _ quiet =>
      refine added rfl fun event member => ?_
      have script := quiet event member
      cases event <;> trivial
  | opens _ _ opens => exact added rfl (opens.respects sound.registry)
  | leaves | passes | finishes | sweepEnds =>
      exact added (List.append_nil _).symm (by simp)
  | ends | unwinds | delivers => exact added rfl (by simp [Event.Respects])
  | sweeps | helps | drains => exact added rfl (by simp [Task.started, Event.Respects])
  | contains => exact added rfl (by simp [Event.Respects])
  | settles =>
      refine added rfl ?_
      cases σ.signal.panic? with
      | none => exact fun _ wrong => absurd wrong List.not_mem_nil
      | some payload =>
          simp only [settle]
          split <;> simp [Event.ofNotices, Event.Respects]
  | closesBatch top finished =>
      have clear := clear_of_over sound.custody top finished (by simp)
      exact added rfl (respects_closeBatch sound balanced clear)
  | closesPool => exact added rfl (by simp [closePool, Event.ofNotices, Event.Respects])

/-! ## What the closing of a pool runs -/

/-- The closing of a pool starts nothing but what it takes from the pool. -/
theorem Moves.closing_starts (moves : σ.Moves σ') {p : PoolId} {ran : Nat} {below : List Frame}
    (top : σ.frames = .closing p ran :: below) {events : List Event}
    (history : σ'.history = σ.history ++ events) {job : JobId} {label : String}
    (started : .started job label ∈ events) :
    ∃ (task : Task) (system : System Work),
      σ.system.take (.pool p) = some (task.job, system) ∧ task.id = job := by
  have same : ∀ {added}, σ'.history = σ.history ++ added → added = events :=
    fun history' => List.append_cancel_left (history'.symm.trans history)
  cases moves with
  | advances top' on | opens top' on =>
      rw [top'] at top
      rw [(List.cons.inj top).1] at on
      cases on
  | passes top' kind =>
      rw [top'] at top
      cases top
      simp [Frame.isPause] at kind
  | leaves top' | finishes top' | ends top' | unwinds top' | settles top' | contains top'
  | sweeps top' | sweepEnds top' | helps top' | delivers top' | closesBatch top' =>
      rw [top'] at top
      cases top
  | drains top' taken =>
      rw [top'] at top
      cases top
      cases same rfl
      cases List.mem_singleton.mp started
      exact ⟨_, _, taken, rfl⟩
  | closesPool =>
      cases same rfl
      simp [closePool, Event.ofNotices] at started

/-- What is left in a pool that is closing was never wrapped, and no batch owned its lane. -/
theorem leftover_raw (sound : σ.Sound) (balanced : σ.Balanced) (settled : σ.system.Settled)
    (respects : ∀ event ∈ σ.history, event.Respects σ.system) {p : PoolId} {task : Task}
    {system : System Work} (closing : σ.system.Closing (.pool p))
    (taken : σ.system.take (.pool p) = some (task.job, system)) :
    ∃ inlet, .submitted task.id none (.queued p inlet) ∈ σ.history ∧
      ∀ t b, inlet = .lane t → (σ.system.batch b).kind ≠ .single t := by
  obtain ⟨q, within, inlet, rest, loses, rfl⟩ := take_loses taken
  cases List.mem_singleton.mp within
  have filing := ((sound.filed p).loses loses).1
  have raw : task.batch = none := by
    cases wrapped : task.batch with
    | none => rfl
    | some b =>
        have member := loses.perm.mem_iff.mpr List.mem_cons_self
        have live := home_live sound balanced settled member filing wrapped
        have named : σ.system.Nameable (.pool p) := live
        exact absurd closing (not_closing named)
  obtain ⟨inlet', logged⟩ := filing.logged
  simp only [Task.job_id, Task.job_batch, raw] at logged
  refine ⟨inlet', logged, ?_⟩
  rintro t b rfl
  exact (respects _ logged).2 b

end Scene

namespace Machine

variable {m next : Machine} {b : BatchId}

theorem Solo.attended (solo : m.Solo) : m.scene.Attended := by
  refine solo.invariant ?_ fun sound attended moves => moves.attended sound attended
  intro _ _ _ object closing
  cases object <;> cases closing

theorem Solo.respects (solo : m.Solo) :
    ∀ event ∈ m.history, event.Respects m.world.system := by
  let holds (σ : Scene) : Prop := ∀ event ∈ σ.history, event.Respects σ.system
  show holds m.scene
  induction solo with
  | load => exact fun _ wrong => nomatch wrong
  | turn run stepped alone ih =>
      rcases run.moves stepped alone with same | moves
      · exact same ▸ ih
      · exact moves.respects run.sound.scene run.balanced ih

theorem Solo.attends (solo : m.Solo) (counted : 0 < m.world.system.outstanding b) :
    m.scene.Attends b :=
  Scene.attends_of_outstanding solo.attended solo.settled counted

/-- No task outlives its batch. As long as a wrapped task is not over or has not reported its end,
its batch is live or in the last wait of its drop. So the release of a token that a batch owned
never moved a job, and what the closing of a pool runs was submitted at the pool itself or through a
token of its own, and was not wrapped. -/
theorem Solo.no_orphans (solo : m.Solo) :
    (∀ job b route, .submitted job (some b) route ∈ m.history → ¬ m.scene.IsOver job →
        m.scene.Attends b) ∧
      (∀ job b, .settle job b ∈ m.driver.frames → m.scene.Attends b) ∧
      (∀ t name moved b, .logged (.tokenReleased t name moved) ∈ m.history →
        (m.world.system.batch b).kind = .single t → moved = 0) ∧
      ∀ p ran below next events job label, m.driver.frames = .closing p ran :: below →
        m.step = some next → next.others = [] → next.history = m.history ++ events →
        .started job label ∈ events →
        ∃ inlet, .submitted job none (.queued p inlet) ∈ m.history ∧
          ∀ t b, inlet = .lane t → (m.world.system.batch b).kind ≠ .single t := by
  have sound := solo.sound.scene
  refine ⟨?_, ?_, ?_, ?_⟩
  · intro job b route logged pending
    exact solo.attends (Scene.outstanding_of_pending sound solo.tallied solo.guarded solo.balanced
      logged pending)
  · intro job b reports
    exact solo.attends (solo.balanced.counted reports)
  · intro t name moved b logged owns
    exact (solo.respects _ logged).2 b owns
  · intro p ran below next events job label top stepped alone history started
    rcases solo.moves stepped alone with same | moves
    · have kept : next.history = m.history := congrArg Scene.history same
      rw [kept, List.self_eq_append_right] at history
      rw [history] at started
      cases started
    · obtain ⟨task, system, taken, rfl⟩ := moves.closing_starts top history started
      have closing : m.scene.system.Closing (.pool p) :=
        sound.custody.closing _ (by simp [show m.scene.frames = _ from top, Frame.closing?])
      exact Scene.leftover_raw sound solo.balanced solo.settled solo.respects closing taken

/-- A task on one pool drops a token, a batch and the pool that both belong to. A raw job was queued
through the token, and a task in the batch. -/
def undoing : List Op :=
  [.pool (.given "p") .missing .missing .missing .missing,
    .pool (.given "q") .missing .missing .missing .missing,
    .token (.given "t") (.given "p"),
    .batch (.given "s") (.given "p") .missing (.given true),
    .batch (.given "u") (.given "q") .missing (.given false),
    .schedule (.given "p") (.given (.own "loose" [])) (.given .forced) (.given "t"),
    .schedule (.given "s") (.given (.own "inner" [])) (.given .forced) .missing,
    .schedule (.given "u") (.given (.own "outer"
      [.drop (.given "t"), .drop (.given "s"), .drop (.given "p")])) (.given .forced) .missing,
    .wait (.given "u") .report false]

/-- The outer task still runs, and its batch is waited for. The release of the other batch moved
nothing, and all that the closing of the pool finds is the raw job. -/
theorem undoing_no_orphans :
    let closing := (Machine.load [] .plain undoing).run 38
    let draining := (Machine.load [] .plain undoing).run 39
    closing.Solo ∧ .submitted ⟨2⟩ (some ⟨1⟩) (.queued ⟨1⟩ .shared) ∈ closing.history ∧
      ¬ closing.scene.IsOver ⟨2⟩ ∧ closing.scene.Attends ⟨1⟩ ∧
      .settle ⟨2⟩ ⟨1⟩ ∈ closing.driver.frames ∧
      .logged (.tokenReleased ⟨1⟩ "p" 0) ∈ closing.history ∧
      (closing.world.system.batch ⟨0⟩).kind = .single ⟨1⟩ ∧
      closing.driver.frames = .closing ⟨0⟩ 0 :: draining.driver.frames.drop 3 ∧
      closing.step = some draining ∧ draining.others = [] ∧
      draining.history = closing.history ++ [.started ⟨0⟩ "loose"] ∧
      ∃ inlet, .submitted ⟨0⟩ none (.queued ⟨0⟩ inlet) ∈ closing.history ∧
        ∀ t b, inlet = .lane t → (closing.world.system.batch b).kind ≠ .single t := by
  intro closing draining
  have solo : closing.Solo := (Solo.load [] .plain undoing).run 38 (by decide)
  have logged : .submitted ⟨2⟩ (some ⟨1⟩) (.queued ⟨1⟩ .shared) ∈ closing.history :=
    List.mem_of_getElem? (i := 15) rfl
  have pending : ¬ closing.scene.IsOver ⟨2⟩ := fun finished => absurd finished.ended (by decide)
  have reports : .settle ⟨2⟩ ⟨1⟩ ∈ closing.driver.frames := List.mem_of_getElem? (i := 3) rfl
  have released : .logged (.tokenReleased ⟨1⟩ "p" 0) ∈ closing.history :=
    List.mem_of_getElem? (i := 23) rfl
  have top : closing.driver.frames = .closing ⟨0⟩ 0 :: draining.driver.frames.drop 3 := rfl
  have history : draining.history = closing.history ++ [.started ⟨0⟩ "loose"] := rfl
  obtain ⟨attends, _, _, starts⟩ := Solo.no_orphans solo
  exact ⟨solo, logged, pending, attends _ _ _ logged pending, reports, released, rfl, top, rfl,
    rfl, history,
    starts _ _ _ draining _ _ _ top rfl rfl history List.mem_cons_self⟩

end Machine

end TaskPool
