import TaskPool.Proofs.StartOrder
import TaskPool.Proofs.WaitBudgets

/-!
# What is left in a pool

A pool may be dropped when nothing that was made from it is left. All its jobs are in the shared
queue then, and nobody but the drop itself can reach them: no name and no open token or batch leads
to the pool. So whatever the jobs do that the drop runs, the drop runs the queue from its head to
its end and counts it.
-/

namespace TaskPool

open TaskPool.System

/-! ## A pool that is being dropped is left alone -/

theorem System.closePool_stage {s : System Work} (p : PoolId) (leftover : Nat) :
    ((s.closePool p leftover).1.pool p).stage = .closed := by
  by_cases known : p.index < s.pools.length
  · exact congrArg Pool.stage (pool_modifyPool_self _ known)
  · rw [closePool, modifyPool_unknown _ (Nat.le_of_not_lt known),
      pool_unknown (Nat.le_of_not_lt known)]
    rfl

namespace Scene

variable {σ σ' : Scene} {opening : Opening} {p : PoolId}

theorem live_of_reach (registry : Registry σ.system σ.names) {target : Target} {hold : Hold}
    (nameable : ∀ loan ∈ target.loans hold, σ.system.Nameable loan.object)
    (within : p ∈ σ.system.reach (target.source σ.system)) : (σ.system.pool p).stage = .live := by
  obtain ⟨loan, member, leads⟩ := registry.reach_target nameable within
  have nameable := nameable loan member
  cases object : loan.object with
  | pool q =>
      rw [object] at leads nameable
      exact leads ▸ nameable
  | commonPool =>
      rw [object] at leads
      cases leads
  | token t =>
      rw [object] at leads nameable
      exact leads.2 ▸ registry.tokens t nameable.1
  | batch b =>
      rw [object] at leads nameable
      exact leads.2 ▸ registry.batches b (Stage.opened nameable)

theorem ne_of_live {q : PoolId} (closing : (σ.system.pool p).stage = .closing)
    (live : (σ.system.pool q).stage = .live) : q ≠ p := by
  rintro rfl
  cases live.symm.trans closing

theorem pool_take_of_live {s s' : System Work} {source : Source} {job : Job Work}
    (taken : s.take source = some (job, s')) (other : p ∉ s.reach source) :
    s'.pool p = s.pool p := by
  obtain ⟨q, reached, _, _, _, rfl⟩ := take_loses taken
  refine pool_modifyPool_of_ne _ ?_
  rintro rfl
  exact other reached

theorem pool_releaseToken_of_ne {s : System Work} {t : TokenId} (other : (s.token t).pool ≠ p) :
    (s.releaseToken t).1.pool p = s.pool p :=
  pool_modifyPool_of_ne (p := (s.token t).pool) _ other

theorem Opens.spares (opens : σ.Opens opening) (registry : Registry σ.system σ.names)
    (closing : (σ.system.pool p).stage = .closing) :
    opening.system.pool p = σ.system.pool p := by
  have named : ∀ q, σ.Named (.pool q) → q ≠ p := by
    rintro q ⟨name, named⟩
    exact ne_of_live closing (registry.named name _ (Table.mem_of_find? named))
  have issued : ∀ q, q ≠ p → (σ.system.issueToken q).2.1.pool p = σ.system.pool p :=
    fun q other => pool_modifyPool_of_ne (p := q)
      (s := { σ.system with tokens := σ.system.tokens ++ [{ pool := q }] }) _ other
  have submitted : ∀ {entry : Entry} {work : Work} {made : Submission Work},
      σ.Lends (entry.target.loans .share) → σ.system.submit entry work = made →
      made.system.pool p = σ.system.pool p := by
    intro entry work made lent submits
    have other := ne_of_live closing (lent.inlet_live registry)
    cases submits ▸ submit_submits (s := σ.system) entry work with
    | declined _ _ _ system => rw [system, count_pool]
    | admitted admits =>
        obtain ⟨_, ⟨_, system⟩ | ⟨_, system⟩⟩ := admits
        · rw [system, count_pool]
        · rw [system, pool_modifyPool_of_ne _ other, count_pool]
  cases opens with
  | rests | pauses | waits | triesToWait | sweeps | dropsBatch => rfl
  | startsPool => exact pool_startPool _ _ (by rw [closing]; nofun)
  | issuesToken _ from' => exact issued _ (named _ from')
  | @makesBatch _ q single _ _ _ from' =>
      cases single with
      | true => exact issued q (named q from')
      | false => rfl
  | @dropsToken _ t _ found =>
      have opened := (registry.named _ _ (Table.mem_of_find? found)).1
      exact pool_releaseToken_of_ne (ne_of_live closing (registry.tokens t opened))
  | dropsPool found => exact pool_modifyPool_of_ne _ (named _ ⟨_, found⟩)
  | queues lent submits => exact submitted lent submits
  | runsInline lent submits => exact submitted lent submits
  | executes lent taken =>
      refine pool_take_of_live taken fun within => ?_
      exact ne_of_live closing (live_of_reach registry (lent.nameable registry) within) rfl

/-- Only the drop itself touches a pool that is being dropped. -/
theorem Moves.spares (moves : σ.Moves σ') (sound : σ.Sound)
    (closing : .pool p ∈ closings σ.frames)
    (other : ∀ ran below, σ.frames ≠ .closing p ran :: below) :
    σ'.system.pool p = σ.system.pool p := by
  have registry := sound.registry
  have closed : (σ.system.pool p).stage = .closing := sound.custody.closing _ closing
  have batch : ∀ b, (σ.system.batch b).stage ≠ .closed → (σ.system.batch b).pool ≠ p :=
    fun b opened => ne_of_live closed (registry.batches b opened)
  cases moves with
  | advances | leaves | passes | finishes | ends | unwinds | contains | sweepEnds => rfl
  | opens _ _ opens => exact opens.spares registry closed
  | settles =>
      simp only [settle_system]
      rfl
  | delivers =>
      simp only [deliver_system]
      rfl
  | sweeps top _ taken =>
      have stacked := sound.custody.stacked
      rw [top] at stacked
      cases stacked.1 with
      | pause kind => simp [Frame.isPause] at kind
      | sweep =>
          refine pool_take_of_live taken fun within => ?_
          have held := held_nameable registry sound.custody
            (top ▸ List.mem_cons_of_mem _ List.mem_cons_self)
          exact ne_of_live closed
            (live_of_reach registry (fun loan member => (held loan member).2) within) rfl
  | @helps b budget goal _ _ _ top _ _ taken =>
      have opened := (sound.barred (top ▸ List.mem_cons_self)).not_closed sound
      refine pool_take_of_live taken fun within => ?_
      exact batch b opened (registry.reach_sourceOf within)
  | @closesBatch b _ _ top =>
      have opened := (sound.barred (top ▸ List.mem_cons_self)).not_closed sound
      rw [closeBatch_system]
      cases kind : (σ.system.batch b).kind with
      | multi => rfl
      | single t =>
          refine pool_releaseToken_of_ne (s := σ.system.endBatch b) ?_
          exact (registry.owned b t kind).2.1 ▸ batch b opened
  | @drains q ran _ _ _ _ top taken =>
      refine pool_take_of_live taken fun within => ?_
      exact other ran _ (List.mem_singleton.mp within ▸ top)
  | @closesPool q ran _ _ top =>
      refine pool_modifyPool_of_ne _ ?_
      rintro rfl
      exact other ran _ top

end Scene

/-! ## What was submitted through tokens -/

/-- One job was queued through a token of the pool before another was, and either both were queued
through the same token or the token of the former was released before that of the latter. -/
inductive HandedBefore (p : PoolId) (history : List Event) (a b : JobId) : Prop where
  | queued {first between last batch batch' t}
      (split : history = first ++ .submitted a batch (.queued p (.lane t)) :: between ++
        .submitted b batch' (.queued p (.lane t)) :: last)
  | released {first between last batch batch' t u name name' moved moved'}
      (through : .submitted a batch (.queued p (.lane t)) ∈ history)
      (through' : .submitted b batch' (.queued p (.lane u)) ∈ history)
      (split : history = first ++ .logged (.tokenReleased t name moved) :: between ++
        .logged (.tokenReleased u name' moved') :: last)

/-- Nothing is queued through a token after its release. -/
def Sealed (history : List Event) : Prop :=
  history.Pairwise fun earlier later => ∀ t name moved job batch p,
    earlier = .logged (.tokenReleased t name moved) →
      later ≠ .submitted job batch (.queued p (.lane t))

section

variable {history events : List Event} {event : Event}

theorem Sealed.of_quiet (sealing : Sealed history) (quiet : ∀ event ∈ events, event.isQuiet = true) :
    Sealed (history ++ events) := by
  refine List.pairwise_append.mpr ⟨sealing, List.pairwise_of_forall_mem_list ?_, ?_⟩
  · rintro _ _ later member t name moved job batch p _ rfl
    cases quiet _ member
  · rintro _ _ later member t name moved job batch p _ rfl
    cases quiet _ member

theorem Sealed.append (sealing : Sealed history)
    (last : ∀ t job batch p, event = .submitted job batch (.queued p (.lane t)) →
      ¬ Released history t) : Sealed (history ++ [event]) := by
  refine List.pairwise_append.mpr ⟨sealing, List.pairwise_singleton _ _, ?_⟩
  rintro _ earlier _ member t name moved job batch p rfl rfl
  cases List.mem_singleton.mp member
  exact last t job batch p rfl ⟨name, moved, earlier⟩

theorem Sealed.before {first last : List Event} {t : TokenId} {name : String} {moved : Nat}
    {job : JobId} {batch : Option BatchId} {p : PoolId} (sealing : Sealed history)
    (split : history = first ++ .logged (.tokenReleased t name moved) :: last)
    (through : .submitted job batch (.queued p (.lane t)) ∈ history) :
    .submitted job batch (.queued p (.lane t)) ∈ first := by
  subst split
  rcases List.mem_append.mp through with before | after
  · exact before
  · cases after with
    | tail _ after =>
        have behind := (List.pairwise_append.mp sealing).2.1
        exact absurd rfl (List.rel_of_pairwise_cons behind after t name moved job batch p rfl)

end

theorem HandedBefore.precedes {p : PoolId} {history : List Event} {a b : JobId}
    (handed : HandedBefore p history a b) (sealing : Sealed history)
    (unstarted : ∀ label, .started a label ∉ history)
    (unstarted' : ∀ label, .started b label ∉ history) : Precedes history a b := by
  cases handed with
  | @queued _ _ _ _ _ t split => exact .onPath (.token t) split .token .token
  | released through through' split =>
      have split' := split
      rw [List.append_assoc] at split'
      have before := sealing.before split' through
      have before' := sealing.before split through'
      refine .inShared p split (.handedOver before ?_) (.handedOver before' ?_)
      · exact fun label early => unstarted label (split' ▸ List.mem_append_left _ early)
      · exact fun label early => unstarted' label (split ▸ List.mem_append_left _ early)

theorem Scene.Moves.sealed {σ σ' : Scene} (moves : σ.Moves σ') (sound : σ.Sound)
    (inLine : σ.InLine) (sealing : Sealed σ.history) : Sealed σ'.history := by
  cases moves.carries sound with
  | rests _ record quiet => exact record ▸ sealing.of_quiet quiet
  | runs _ _ record quiet =>
      rw [record]
      exact (sealing.of_quiet quiet).append fun _ _ _ _ wrong => nomatch wrong
  | enters _ _ opened _ record quiet =>
      rw [record]
      refine (sealing.of_quiet quiet).append fun t _ _ _ same released => ?_
      cases same
      exact (opened t rfl).1 (inLine.closed t (released.of_quiet quiet)).2
  | starts _ _ record =>
      rw [record]
      exact sealing.append fun _ _ _ _ wrong => nomatch wrong
  | releases _ _ _ _ _ _ record quiet =>
      rw [record]
      exact (sealing.of_quiet quiet).append fun _ _ _ _ wrong => nomatch wrong

theorem Machine.Solo.sealed {m : Machine} (solo : m.Solo) : Sealed m.history := by
  let holds (σ : Scene) : Prop := (σ.Tallied ∧ σ.InLine) ∧ Sealed σ.history
  have start : ∀ bodies host ops, holds (Machine.load bodies host ops).scene :=
    fun bodies host ops => ⟨⟨.load bodies host ops, .load bodies host ops⟩, .nil⟩
  refine (solo.invariant start fun sound kept moves => ?_).2
  obtain ⟨⟨tallied, inLine⟩, sealing⟩ := kept
  exact ⟨⟨(moves.shift sound).tallied tallied, moves.inLine sound tallied inLine⟩,
    moves.sealed sound inLine sealing⟩

theorem Op.perform_dropPool {ctx : Context} {w : World} {op : Op} {name : String}
    (driver : ctx.thread = .driver) (asks : op.uncaught.2 = .drop (.given name))
    (named : w.names.find? name = some (.pool p)) (apart : name ∉ ctx.batches)
    (free : w.isBusy (.pool p) = false) (catchAll : Bool) :
    op.perform ctx w catchAll =
      { world := { w.unbind name with system := (w.system.beginClosingPool p).1 }
        events := Event.ofNotices (w.system.beginClosingPool p).2
        push := [.closing p 0, .call [] .report (op.uncaught.1 || catchAll)] } := by
  have resolved : w.resolve ctx.thread name = .ok (.pool p) := driver ▸ World.resolve_driver named
  have apart : ctx.batches.contains name = false := by simpa using apart
  have accepted : Begun.ofOp ctx w op.uncaught.2 = .ok
      { world := { w.unbind name with system := (w.system.beginClosingPool p).1 }
        events := Event.ofNotices (w.system.beginClosingPool p).2
        push := [.closing p 0] } := by
    simp only [asks, Begun.ofOp, Begun.drop, Arg.require, driver, apart, beq_self_eq_true, bind,
      Except.bind]
    rw [driver] at resolved
    simp only [resolved, free]
    rfl
  simp only [Op.perform, accepted]
  rfl

namespace Machine

variable {m : Machine} {p : PoolId} {below base : List Frame} {ran turns k : Nat}
  {outcome : Signal}

/-! ## One round of the drop -/

/-- The jobs that the frame on top starts itself, from one turn of its own to the next. -/
theorem helped_round {job : JobId} (starts : (m.run 1).topJob? = some job)
    (inside : ∀ k, 0 < k → k ≤ turns → m.height < (m.run k).height) :
    m.helped (1 + turns) = [job] := by
  induction turns with
  | zero =>
      rw [helped_succ, if_pos (show (m.run 0).height = m.height from rfl)]
      rw [starts]
      rfl
  | succ turns ih =>
      rw [← Nat.add_assoc, helped_succ, ih fun k positive few => inside k positive (by omega)]
      have high := inside (1 + turns) (by omega) (by omega)
      rw [if_neg (Nat.ne_of_gt high), List.append_nil]

theorem helped_add {i : Nat} (level : (m.run i).height = m.height) (j : Nat) :
    m.helped (i + j) = m.helped i ++ (m.run i).helped j := by
  induction j with
  | zero => simp [helped]
  | succ j ih =>
      rw [← Nat.add_assoc, helped_succ, helped_succ, ih, List.append_assoc, level, ← run_add,
        ← run_add, Nat.add_assoc]

/-- The drop of a pool that has no lane is at a turn of its own and has run some jobs so far. -/
structure Drains (m : Machine) (p : PoolId) (ran : Nat) (below : List Frame) : Prop where
  top : ∃ told, m.driver.frames = .closing p told :: below ∧
    ∀ ctx, (Frame.closing p told).resume ctx m.world m.driver.signal =
      Frame.resumeClosing ctx p ran m.world
  lanes : (m.world.system.pool p).lanes = []

theorem Solo.idle (solo : m.Solo) (p : PoolId) : ¬ 0 < (m.world.system.pool p).working := by
  have idle := (solo.sound.scene.registry.idle p).2.2
  exact Nat.not_lt.mpr (Nat.le_of_eq idle)

theorem Solo.span_spares (solo : m.Solo) {push : List Frame}
    (stack : m.driver.frames = push ++ .closing p ran :: below) (above : push ≠ [])
    (comes : m.Comes (.closing p ran :: below) turns outcome) :
    (m.run turns).world.system.pool p = m.world.system.pool p := by
  have high : below.length + 1 < m.height := by
    have positive := List.length_pos_iff.mpr above
    simp only [height, stack, List.length_append, List.length_cons]
    omega
  have kept : ∀ k ≤ turns, (m.run k).world.system.pool p = m.world.system.pool p := by
    intro k few
    induction k with
    | zero => rfl
    | succ k ih =>
        have alone := comes.alone.le few
        have higher : ∀ j < k + 1, (Frame.closing p ran :: below).length < (m.run j).height := by
          intro j early
          rcases Nat.eq_zero_or_pos j with rfl | positive
          · exact high
          · exact comes.inside j positive (by omega)
        have solo' := solo.after (alone.le (Nat.le_succ k))
        obtain ⟨push', before⟩ := keeps_below stack
          fun j early => higher j (Nat.lt_succ_of_lt early)
        rw [← ih (Nat.le_of_succ_le few), run_add m k 1]
        rcases solo'.turned alone.later with same | moves
        · exact congrArg (fun σ : Scene => σ.system.pool p) same
        · refine moves.spares solo'.sound.scene ?_ ?_
          · show _ ∈ closings (m.run k).driver.frames
            rw [before, closings_append]
            exact List.mem_append_right _ List.mem_cons_self
          · intro ran' below' top
            have once := solo'.sound.scene.custody.once
            have top : (m.run k).driver.frames = _ := top
            rw [show (m.run k).scene.frames = _ from before] at once
            have longer := higher k (Nat.lt_succ_self k)
            cases push' with
            | nil =>
                rw [height, before] at longer
                exact Nat.lt_irrefl _ longer
            | cons frame push' =>
                obtain ⟨rfl, _⟩ := List.cons.inj (before.symm.trans top)
                simp [Frame.closing?] at once
  exact kept turns (Nat.le_refl turns)

theorem Drains.helps (drains : m.Drains p ran below) (solo : m.Solo) {job : Job Work}
    {rest : List (Job Work)} (front : (m.world.system.pool p).shared = job :: rest) :
    ∃ task : Task, task.job = job ∧
      (m.run 1).driver.frames = task.frames ++ .contain task.id p :: .closing p ran :: below ∧
      (m.run 1).others = [] ∧
      (m.run 1).world.system.pool p =
        { m.world.system.pool p with
          shared := rest, queued := (m.world.system.pool p).queued - 1 } := by
  obtain ⟨told, top, resumes⟩ := drains.top
  have taken : m.world.system.take (.pool p) = some (job, m.world.system.modifyPool p fun pool =>
      { m.world.system.pool p with
        shared := rest, queued := (m.world.system.pool p).queued - 1 }) := by
    simp only [System.take, Pool.pop, front, Option.map_some]
  have filed : Filed m.world.system m.history := solo.sound.scene.filed
  obtain ⟨task, rfl⟩ := filed.task_of_take taken
  have stepped := step_of_resume top ((resumes _).trans (by
    rw [Frame.resumeClosing, if_neg (solo.idle p), Source.runNext, taken]
    rfl))
  refine ⟨task, rfl, ?_⟩
  rw [run_one stepped]
  refine ⟨?_, ?_, ?_⟩
  · simp only [Turn.above, Task.launch_job, List.append_assoc]
    rfl
  · simp only [Turn.above, Task.launch_job, solo.others, List.append_nil]
  · have waiting : task.job ∈ (m.world.system.pool p).queue .shared := by
      rw [Pool.queue, front]
      exact List.mem_cons_self
    have known : p.index < m.world.system.pools.length :=
      pool_known_of_mem (Pool.mem_contents_of_queue waiting)
    exact pool_modifyPool_self _ known

theorem Drains.stops (drains : m.Drains p ran below) (solo : m.Solo)
    (empty : (m.world.system.pool p).shared = []) :
    m.Comes below 1 (.returned .nothing) ∧
      ((m.run 1).world.system.pool p).stage = .closed ∧
      (m.run 1).history =
        m.history ++ [.logged (.poolClosed p (m.world.system.pool p).name ran)] := by
  obtain ⟨told, top, resumes⟩ := drains.top
  have none : m.world.system.take (.pool p) = none := by
    simp [System.take, Pool.pop, empty, drains.lanes, Lane.takeFirst]
  have taken : ∀ ctx, (Frame.closing p told).resume ctx m.world m.driver.signal =
      some { Turn.reply { m.world with system := (m.world.system.closePool p ran).1 } .nothing with
        events := Event.ofNotices (m.world.system.closePool p ran).2 } := by
    intro ctx
    rw [resumes, Frame.resumeClosing, if_neg (solo.idle p), Source.runNext, none]
    rfl
  obtain ⟨back, signal, still⟩ := run_one_of_reply top (taken _) rfl rfl
  refine ⟨.one solo.others (still.trans solo.others) back signal, ?_, history_of_turn top (taken _)⟩
  rw [run_one (step_of_resume top (taken _))]
  exact closePool_stage p ran

/-- After a job that the drop ran it is at a turn of its own again. -/
theorem Drains.round (drains : m.Drains p ran below) (solo : m.Solo) {job : Job Work}
    {rest : List (Job Work)} (front : (m.world.system.pool p).shared = job :: rest)
    (back : (m.run 1).Comes (.closing p ran :: below) k outcome) :
    (m.run (1 + k)).Drains p (ran + 1) below ∧
      ((m.run (1 + k)).world.system.pool p).shared = rest ∧
      ((m.run (1 + k)).world.system.pool p).name = (m.world.system.pool p).name ∧
      m.helped (1 + k) = [job.id] := by
  obtain ⟨task, rfl, started, alone, pool⟩ := drains.helps solo front
  have solo' : (m.run 1).Solo := solo.after (.one solo.others alone)
  have stack : (m.run 1).driver.frames =
      (task.frames ++ [.contain task.id p]) ++ .closing p ran :: below := by
    rw [started, List.append_assoc]
    rfl
  have low : ((m.run 1).run k).height ≤ (Frame.closing p ran :: below).length + 1 := by
    rw [height, back.back]
    exact Nat.le_succ _
  obtain ⟨i, contained, _⟩ := back.alone.contains started low
  have told := back.outcome.trans (back.unique contained).2
  have spared := solo'.span_spares stack (by simp) back
  rw [pool] at spared
  obtain ⟨told', top, _⟩ := drains.top
  have level : m.height = below.length + 1 := congrArg List.length top
  rw [run_add]
  refine ⟨⟨⟨ran, back.back, fun ctx => ?_⟩, ?_⟩, ?_, ?_, helped_round ?_ ?_⟩
  · rw [told]
    rfl
  · rw [spared]
    exact drains.lanes
  · rw [spared]
  · rw [spared]
  · rw [topJob?, started]
    rfl
  · intro i positive few
    obtain ⟨i, rfl⟩ := Nat.exists_eq_add_of_le positive
    rw [run_add, level]
    rcases Nat.eq_zero_or_pos i with rfl | later
    · show _ < (m.run 1).driver.frames.length
      simp only [started, List.length_append, List.length_cons]
      omega
    · exact back.inside i later (by omega)

/-- The drop runs what is left in the order of the queue and tells how much it was. The induction is
on what is left; a job that panics is a round like any other. -/
theorem Solo.drop_runs (solo : m.Solo) {left : List (Job Work)} (drains : m.Drains p ran below)
    (queue : (m.world.system.pool p).shared = left) (comes : m.Comes below turns outcome) :
    outcome = .returned .nothing ∧ m.helped turns = left.map (·.id) ∧
      ((m.run turns).world.system.pool p).stage = .closed ∧
      ∃ events, (m.run turns).history = m.history ++ events ++
        [.logged (.poolClosed p (m.world.system.pool p).name (ran + left.length))] := by
  induction left generalizing m ran turns with
  | nil =>
      obtain ⟨last, closed, told⟩ := drains.stops solo queue
      obtain ⟨rfl, rfl⟩ := comes.unique last
      obtain ⟨_, top, _⟩ := drains.top
      have stacked := solo.sound.scene.custody.stacked
      rw [show m.scene.frames = _ from top] at stacked
      cases stacked.1 with
      | pause =>
          refine ⟨rfl, ?_, closed, [], by rw [told, List.append_nil]; rfl⟩
          rw [helped_succ, if_pos (show (m.run 0).height = m.height from rfl), topJob?, last.back]
          rfl
  | cons job rest ih =>
      obtain ⟨task, rfl, started, alone, _⟩ := drains.helps solo queue
      have solo' : (m.run 1).Solo := solo.after (.one solo.others alone)
      have high : below.length < (m.run 1).height := by
        simp only [height, started, List.length_append, List.length_cons]
        omega
      obtain ⟨n, rfl, later⟩ := comes.past_first high
      have stack : (m.run 1).driver.frames =
          (task.frames ++ [.contain task.id p]) ++ .closing p ran :: below := by
        rw [started, List.append_assoc]
        rfl
      obtain ⟨i, j, told, rfl, back, after⟩ := later.split stack (by simp)
      obtain ⟨drains', queue', name, one⟩ := drains.round solo queue back
      rw [← run_add] at after
      have solo'' : (m.run (1 + i)).Solo := by
        rw [run_add]
        exact solo'.after back.alone
      obtain ⟨rfl, helped, closed, events, history⟩ := ih solo'' drains' queue' after
      have level : (m.run (1 + i)).height = m.height := by
        obtain ⟨_, top, _⟩ := drains.top
        obtain ⟨_, top', _⟩ := drains'.top
        rw [height, height, top, top']
        rfl
      obtain ⟨events', history'⟩ := m.history_run (1 + i)
      rw [← run_add, Nat.add_assoc] at closed
      refine ⟨rfl, ?_, closed, events' ++ events, ?_⟩
      · rw [← Nat.add_assoc, helped_add level, one, helped]
        rfl
      · rw [← Nat.add_assoc, run_add, history, history', name, List.length_cons,
          Nat.add_right_comm ran 1]
        simp only [List.append_assoc, Nat.add_assoc]

theorem Solo.drop_ends (solo : m.Solo) {left : List (Job Work)} (drains : m.Drains p ran below)
    (queue : (m.world.system.pool p).shared = left) (alone : ∀ k, (m.run k).others = [])
    (ends : m.BodiesEnd) : ∃ turns, m.Comes below turns (.returned .nothing) := by
  induction left generalizing m ran with
  | nil => exact ⟨1, (drains.stops solo queue).1⟩
  | cons job rest ih =>
      obtain ⟨task, rfl, started, _, _⟩ := drains.helps solo queue
      have alone' := others_later alone
      have solo' : ∀ i, (m.run i).Solo := fun i => solo.after fun k _ => alone k
      have high : below.length + 1 < (m.run 1).height := by
        simp only [height, started, List.length_append, List.length_cons]
        omega
      obtain ⟨k, back⟩ := task_ends (alone' 1) (ends.later 1) started
      obtain ⟨drains', queue', _⟩ := drains.round solo queue back
      obtain ⟨turns, comes⟩ := ih (solo' _) drains' queue' (alone' _) (ends.later _)
      rw [run_add] at comes
      have whole := back.trans (Nat.lt_succ_self _) comes
      exact ⟨_, whole.after_first solo.others (Nat.lt_of_succ_lt high)⟩

/-! ## From the first turn to the last -/

/-- The next turn begins to drop a pool that may be dropped: no token and no batch of it is left,
and no operation on it is in progress. When the drop is over, `base` is what is left. -/
inductive Drops (m : Machine) (p : PoolId) : List Frame → Prop where
  | script {name next op rest below} (script : Script) (proceed : m.driver.signal = .proceed)
      (top : m.driver.frames = script.frame next (op :: rest) :: below)
      (asks : op.uncaught.2 = .drop (.given name))
      (named : m.world.names.find? name = some (.pool p))
      (apart : name ∉ Frame.batchNames m.driver.frames)
      (free : m.world.isBusy (.pool p) = false) : Drops m p (script.frame next rest :: below)
  | cleanup {name below} (top : m.driver.frames = .cleanup :: below)
      (next : Frame.nextToDrop m.world = some name)
      (named : m.world.names.find? name = some (.pool p))
      (apart : name ∉ Frame.batchNames m.driver.frames)
      (opened : m.world.hasClosedGate = false)
      (free : m.world.isBusy (.pool p) = false) : Drops m p (.cleanup :: below)

theorem Drops.free (drops : m.Drops p base) : m.world.isBusy (.pool p) = false := by
  cases drops with
  | script _ _ _ _ _ _ free => exact free
  | cleanup _ _ _ _ _ free => exact free

theorem Drops.turn (drops : m.Drops p base) (driver : m.driver.id = .driver) :
    ∃ frame frame' below name caught, m.driver.frames = frame :: below ∧ base = frame' :: below ∧
      frame.resume { thread := m.driver.id, batches := Frame.batchNames (frame :: below) } m.world
        m.driver.signal = some
          { world :=
              { m.world.unbind name with system := (m.world.system.beginClosingPool p).1 }
            events := Event.ofNotices (m.world.system.beginClosingPool p).2
            push := [.closing p 0, .call [] .report caught, frame'] } := by
  cases drops with
  | @script name next op rest below script proceed top asks named apart free =>
      obtain ⟨ctx, thread, batches, resumes⟩ := script.resume_proceed next op rest
        { thread := m.driver.id, batches := Frame.batchNames m.driver.frames } m.world
      rw [Op.perform_dropPool (thread.trans driver) asks named (batches ▸ apart) free] at resumes
      refine ⟨_, _, below, name, op.uncaught.1 || script.catchesAll, top, rfl, ?_⟩
      rw [proceed, ← top, resumes]
      rfl
  | @cleanup name below top next named apart opened free =>
      refine ⟨_, _, below, name, true, top, rfl, ?_⟩
      have apart : name ∉ Frame.batchNames (.cleanup :: below) := top ▸ apart
      simp only [Frame.resume, Frame.resumeCleanup, next, named, opened, Option.any_some, free,
        Object.isPool, Bool.and_false, Bool.false_eq_true, if_false]
      rw [Op.perform_dropPool driver rfl named apart free]
      rfl

theorem Drops.begins (drops : m.Drops p base) (solo : m.Solo) :
    ∃ caught, (m.run 1).driver.frames = .closing p 0 :: .call [] .report caught :: base ∧
      (m.run 1).driver.signal = .proceed ∧ (m.run 1).others = [] ∧
      (m.run 1).world.system = (m.world.system.beginClosingPool p).1 ∧
      (m.run 1).history =
        m.history ++ [.logged (.poolClosing p (m.world.system.pool p).name)] := by
  obtain ⟨frame, frame', below, name, caught, top, rfl, taken⟩ := drops.turn solo.driver
  have stepped := run_one (step_of_resume top taken)
  refine ⟨caught, ?_, ?_, ?_, ?_, history_of_turn top taken⟩
  · rw [stepped]
    rfl
  · rw [stepped]
  · rw [stepped]
    exact List.append_eq_nil_iff.mpr ⟨solo.others, rfl⟩
  · rw [stepped]

/-- A pool that may be dropped has jobs in its shared queue only, and its tokens are released. -/
theorem Drops.collected (drops : m.Drops p base) (solo : m.Solo) :
    (m.world.system.pool p).lanes = [] ∧
      (m.world.system.pool p).queued = (m.world.system.pool p).shared.length ∧
      ∀ t, (m.world.system.token t).pool = p → (m.world.system.token t).stage = .closed := by
  have independent : m.world.system.dependsOnPool p = false := (Bool.or_eq_false_iff.mp drops.free).2
  have released : ∀ t, (m.world.system.token t).pool = p →
      (m.world.system.token t).stage = .closed := by
    intro t own
    by_contra opened
    exact (System.independent independent).1 t opened own
  have none : m.world.system.openTokens p = [] := by
    refine List.eq_nil_iff_forall_not_mem.mpr fun t member => ?_
    obtain ⟨own, opened⟩ := mem_openTokens.mp member
    exact opened (released t own)
  have lanes : (m.world.system.pool p).lanes = [] :=
    List.map_eq_nil_iff.mp ((solo.sound.scene.registry.lanes p).trans none)
  refine ⟨lanes, ?_, released⟩
  have counted : (m.world.system.pool p).queued = (m.world.system.pool p).size := solo.counted p
  rw [counted, Pool.size, lanes]
  rfl

theorem Drops.drains (drops : m.Drops p base) (solo : m.Solo) :
    ∃ caught, (m.run 1).Drains p 0 (.call [] .report caught :: base) ∧ (m.run 1).Solo ∧
      (m.run 1).height = base.length + 2 ∧
      ((m.run 1).world.system.pool p).shared = (m.world.system.pool p).shared ∧
      ((m.run 1).world.system.pool p).name = (m.world.system.pool p).name := by
  obtain ⟨caught, stack, proceed, alone, system, _⟩ := drops.begins solo
  have same {α : Type} (proj : Pool Work → α)
      (kept : ∀ pool : Pool Work, proj { pool with stage := .closing } = proj pool) :
      proj ((m.run 1).world.system.pool p) = proj (m.world.system.pool p) := by
    rw [system]
    exact pool_modifyPool_proj proj (kept _) p
  refine ⟨caught, ⟨⟨0, stack, fun ctx => ?_⟩, ?_⟩, solo.after (.one solo.others alone), ?_, ?_, ?_⟩
  · rw [proceed]
    rfl
  · rw [same (·.lanes) fun _ => rfl]
    exact (drops.collected solo).1
  · rw [height, stack]
    rfl
  · exact same (·.shared) fun _ => rfl
  · exact same (·.name) fun _ => rfl

theorem Drops.runs (drops : m.Drops p base) (solo : m.Solo)
    (comes : m.Comes base (1 + turns) outcome) :
    outcome = .returned .nothing ∧
      (m.run 1).helped turns = (m.world.system.pool p).shared.map (·.id) ∧
      ((m.run (1 + turns)).world.system.pool p).stage = .closed ∧
      ∃ events, (m.run (1 + turns)).history =
        m.history ++ .logged (.poolClosing p (m.world.system.pool p).name) :: events ++
          [.logged (.poolClosed p (m.world.system.pool p).name
            (m.world.system.pool p).shared.length)] := by
  obtain ⟨caught, drains, solo', level, shared, name⟩ := drops.drains solo
  obtain ⟨_, _, _, _, _, history⟩ := drops.begins solo
  obtain ⟨told, top, _⟩ := drains.top
  have high : base.length < (m.run 1).height := by omega
  obtain ⟨n, same, later⟩ := comes.past_first high
  obtain rfl : turns = n := Nat.add_left_cancel same
  have stack : (m.run 1).driver.frames = [.closing p told] ++ .call [] .report caught :: base := top
  obtain ⟨i, j, _, rfl, back, _⟩ := later.split stack (by simp)
  obtain ⟨rfl, helped, closed, events, history'⟩ := solo'.drop_runs drains shared back
  -- the operation returns in the turn after
  obtain ⟨left, returns, still, world, record⟩ := run_one_leave back.back
  rw [back.outcome] at returns
  rw [← run_add] at left returns still world record
  have whole := back.pop (still.trans (back.alone i (Nat.le_refl i))) left returns
  obtain ⟨last, rfl⟩ := later.unique whole
  have apart : ((m.run 1).run i).height ≠ (m.run 1).height := by
    rw [height, back.back, level]
    exact Nat.ne_of_lt (Nat.lt_succ_self _)
  rw [last, helped_succ, if_neg apart, List.append_nil, run_add, world, record, history', history,
    name]
  refine ⟨rfl, helped, closed, events, ?_⟩
  rw [Nat.zero_add]
  simp only [List.append_assoc, List.cons_append, List.nil_append]

theorem Drops.ends (drops : m.Drops p base) (solo : m.Solo) (alone : ∀ k, (m.run k).others = [])
    (ends : m.BodiesEnd) : ∃ turns outcome, m.Comes base (1 + turns) outcome := by
  obtain ⟨caught, drains, solo', level, shared, _⟩ := drops.drains solo
  obtain ⟨i, back⟩ := solo'.drop_ends drains shared (others_later alone 1) (ends.later 1)
  obtain ⟨left, returns, still, _⟩ := run_one_leave back.back
  rw [← run_add] at left returns still
  have whole := back.pop (still.trans (back.alone i (Nat.le_refl i))) left returns
  exact ⟨_, _, whole.after_first solo.others (by omega)⟩

theorem Drops.gathered (drops : m.Drops p base) (solo : m.Solo) {job : JobId}
    {batch : Option BatchId} {t : TokenId}
    (through : .submitted job batch (.queued p (.lane t)) ∈ m.history)
    (unstarted : ∀ label, .started job label ∉ m.history) : job ∈ m.scene.ids p .shared := by
  obtain ⟨tallied, inLine⟩ := solo.inLine
  obtain ⟨q, inlet, member⟩ := Scene.ids_of_unstarted solo.sound.scene tallied through unstarted
  obtain ⟨batch', inlet', logged⟩ : ∃ batch inlet,
      .submitted job batch (.queued q inlet) ∈ m.history := by
    cases inLine.placed q inlet job member with
    | shared logged | lane logged | handedOver logged => exact ⟨_, _, logged⟩
  obtain ⟨_, same⟩ := tallied.submitted_once through logged
  cases same
  cases inlet with
  | shared => exact member
  | lane u =>
      have lanes : (m.scene.system.pool p).lanes = [] := (drops.collected solo).1
      simp [Scene.ids, Pool.queue, Pool.waitingIn, lanes] at member

/-- To drop a pool drains it completely. Take a pool of which no token and no batch is left and on
which no operation is in progress. All its jobs wait in its shared queue, and its count is exact.
What was submitted through its tokens and not started is among them, in the order in which the
tokens were released, and in the order of submission for one token. The drop comes to its end if
every task body does. Whatever the tasks do and whichever of them panics, it runs just these jobs
itself, in the order of the queue; each has been run once and is over when the drop returns; and the
last thing that is logged is their number, which is the count of the pool before the drop. -/
theorem Solo.drop_drains (solo : m.Solo) (drops : m.Drops p base) :
    let pool := m.world.system.pool p
    let closing : Notice := .poolClosing p pool.name
    let closed : Notice := .poolClosed p pool.name pool.queued
    (pool.lanes = [] ∧ pool.queued = pool.shared.length ∧
      ∀ t, (m.world.system.token t).pool = p → (m.world.system.token t).stage = .closed) ∧
    (∀ job batch t, .submitted job batch (.queued p (.lane t)) ∈ m.history →
      (∀ label, .started job label ∉ m.history) → job ∈ pool.shared.map (·.id)) ∧
    (∀ a b, HandedBefore p m.history a b → (∀ label, .started a label ∉ m.history) →
      (∀ label, .started b label ∉ m.history) → [a, b].Sublist (pool.shared.map (·.id))) ∧
    ((∀ k, (m.run k).others = []) → m.BodiesEnd →
      ∃ turns outcome, m.Comes base (1 + turns) outcome) ∧
    ∀ turns outcome, m.Comes base (1 + turns) outcome →
      outcome = .returned .nothing ∧ (m.run 1).helped turns = pool.shared.map (·.id) ∧
      (∀ job ∈ pool.shared, (m.run (1 + turns)).scene.IsOver job.id) ∧
      (∃ events, (m.run (1 + turns)).history =
        m.history ++ .logged closing :: events ++ [.logged closed]) ∧
      closing.line = ⟨.info, "Thread pool shutting down.", [("pool_name", .text pool.name)]⟩ ∧
      closed.line = ⟨.info, "Thread pool stopped.",
        [("pool_name", .text pool.name), ("leftover", .count pool.queued)]⟩ := by
  intro pool closing closed
  obtain ⟨lanes, queued, released⟩ := drops.collected solo
  refine ⟨⟨lanes, queued, released⟩, fun job batch t through unstarted => ?_,
    fun a b handed unstarted unstarted' => ?_, drops.ends solo, fun turns outcome comes => ?_⟩
  · exact drops.gathered solo through unstarted
  · have precedes := handed.precedes solo.sealed unstarted unstarted'
    have member : a ∈ m.scene.ids p .shared := by
      cases handed with
      | @queued _ _ _ batch _ t split =>
          have through : .submitted a batch (.queued p (.lane t)) ∈ m.history := by
            rw [split]
            simp
          exact drops.gathered solo through unstarted
      | released through => exact drops.gathered solo through unstarted
    exact solo.inLine.2.behind a b precedes p .shared member
  · obtain ⟨rfl, helped, stopped, events, history⟩ := drops.runs solo comes
    rw [← queued] at history
    refine ⟨rfl, helped, fun job member => ?_, ⟨events, history⟩, Notice.line_poolClosing ..,
      Notice.line_poolClosed ..⟩
    have filed : Filed m.world.system m.history := solo.sound.scene.filed
    have filing := (filed p).1 job member
    obtain ⟨inlet, logged⟩ := filing.logged
    have solo' : (m.run (1 + turns)).Solo := solo.after comes.alone
    have still : .submitted job.id job.batch (.queued p inlet) ∈ (m.run (1 + turns)).history := by
      rw [history]
      simp [logged]
    exact (solo'.conservation still).2.2 stopped

/-- Three jobs are queued through two tokens of a pool, one of which panics and one of which uses
another pool. The tokens are released, the later one first, and the pool is dropped. -/
def departure : List Op :=
  [.pool (.given "p") .missing .missing .missing .missing,
    .pool (.given "q") .missing .missing .missing .missing,
    .token (.given "t") (.given "p"),
    .token (.given "u") (.given "p"),
    .schedule (.given "p") (.given (.own "first" [.panic (.given .unit)])) (.given .forced)
      (.given "t"),
    .schedule (.given "q") (.given (.own "other"
      [.token (.given "v") (.given "q"), .drop (.given "v")])) (.given .forced) (.given "u"),
    .schedule (.given "p") (.given (.own "second" [])) (.given .forced) (.given "t"),
    .drop (.given "u"),
    .drop (.given "t"),
    .drop (.given "p")]

def departing : Machine := (Machine.load [] .plain departure).run 27

/-- The drop runs the job of the token that was released first, and then both jobs of the other. -/
theorem departure_drained :
    let base : List Frame := [.program [], .cleanup]
    departing.Solo ∧ departing.Drops ⟨0⟩ base ∧ departing.BodiesEnd ∧
      (∃ turns outcome, departing.Comes base (1 + turns) outcome) ∧
      departing.Comes base (1 + 19) (.returned .nothing) ∧
      (departing.run 1).helped 19 = [⟨1⟩, ⟨0⟩, ⟨2⟩] ∧
      HandedBefore ⟨0⟩ departing.history ⟨1⟩ ⟨0⟩ ∧ HandedBefore ⟨0⟩ departing.history ⟨0⟩ ⟨2⟩ ∧
      (∀ job label, .started job label ∉ departing.history) ∧
      ⟨0⟩ ∈ (departing.world.system.pool ⟨0⟩).shared.map (·.id) ∧
      [⟨1⟩, ⟨0⟩].Sublist ((departing.world.system.pool ⟨0⟩).shared.map (·.id)) ∧
      ∃ events last, (departing.run 20).history = events ++ [.logged last] ∧
        last.line = ⟨.info, "Thread pool stopped.",
          [("pool_name", .text "p"), ("leftover", .count 3)]⟩ := by
  intro base
  have solo : departing.Solo := (Solo.load [] .plain departure).run 27 (by decide)
  have drops : departing.Drops ⟨0⟩ base :=
    .script .program rfl (show _ = Script.program.frame 0 _ :: _ from rfl) rfl rfl (by decide)
      (by decide)
  have alone : ∀ k ≤ 51, (departing.run k).others.isEmpty = true := by decide
  have alone : departing.Alone 51 := fun k early => List.isEmpty_iff.mp (alone k early)
  have inside : ∀ k < 1 + 19, 0 < k → base.length < (departing.run k).height := by decide
  have comes : departing.Comes base (1 + 19) (.returned .nothing) :=
    { begun := by decide
      alone := alone.le (by decide)
      back := rfl
      inside := fun k positive below => inside k below positive
      outcome := rfl }
  have finished : (departing.run 51).driver.frames = [] := List.isEmpty_iff.mp (by decide)
  have ends := bodiesEnd_of_finished finished
  have early : HandedBefore ⟨0⟩ departing.history ⟨1⟩ ⟨0⟩ :=
    @HandedBefore.released _ _ _ _ (departing.history.take 15) [departing.history[16]]
      (departing.history.drop 18) none none ⟨1⟩ ⟨0⟩ "p" "p" 1 2
      (List.mem_of_getElem? (i := 11) rfl) (List.mem_of_getElem? (i := 8) rfl) rfl
  have late : HandedBefore ⟨0⟩ departing.history ⟨0⟩ ⟨2⟩ :=
    @HandedBefore.queued _ _ _ _ (departing.history.take 8) ((departing.history.take 13).drop 9)
      (departing.history.drop 14) none none ⟨0⟩ rfl
  have unstarted : ∀ job label, .started job label ∉ departing.history := by
    intro job label member
    have none : departing.history.all (fun event => event.mark != some (.starts job)) = true := rfl
    have other := List.all_eq_true.mp none _ member
    simp [Event.mark] at other
  obtain ⟨_, gathered, inOrder, returns, runs⟩ := Solo.drop_drains solo drops
  obtain ⟨_, helped, _, ⟨_, history⟩, _, last⟩ := runs 19 _ comes
  have first := gathered ⟨0⟩ none ⟨0⟩ (List.mem_of_getElem? (i := 8) rfl) (unstarted _)
  exact ⟨solo, drops, ends, returns (alone.forever finished) ends, comes, helped, early, late,
    unstarted, first, inOrder _ _ early (unstarted _) (unstarted _), _, _, history, last⟩

end Machine

end TaskPool
