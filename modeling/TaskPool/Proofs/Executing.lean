import TaskPool.Proofs.QueuedCount
import TaskPool.Proofs.Spans

/-!
# Running one queued job

An operation that runs one queued job is followed from its beginning to its reply. It finds a job
exactly when the running counts say that there is one, and it replies whether it found any, however
the job ends.
-/

namespace TaskPool

open TaskPool.System

inductive World.Asks (w : World) : Op → Source → Prop where
  | pool {name p} (named : w.names.find? name = some (.pool p)) :
      Asks w (.exec (.given name) .missing) (.pool p)
  | token {name other p t} (named : w.names.find? name = some (.pool p))
      (named' : w.names.find? other = some (.token t)) :
      Asks w (.exec (.given name) (.given other)) (.lane p t)
  | batch {name b} (named : w.names.find? name = some (.batch b)) (free : w.isAwaited b = false) :
      Asks w (.exec (.given name) .missing) (w.system.sourceOf b)
  | catching {op source} (asks : Asks w op source) : Asks w (.catching op) source

/-- A script that carries out an operation next, and what is left of the script meanwhile. -/
inductive Frame.Performs : Frame → Op → Frame → Prop where
  | program {op rest} : Performs (.program (op :: rest)) op (.program rest)
  | body {job label next op rest onBatch} :
      Performs (.body job label next (op :: rest) onBatch) op (.body job label next rest onBatch)

/-- The turn of a script that runs one job: it ran one, or there was none. -/
def Op.executes (ctx : Context) (source : Source) (loans : List Loan) (caught : Bool) (w : World) :
    Turn :=
  match source.runNext ctx w with
  | some turn =>
    { turn.above [.executed, .call loans .report caught] with world := turn.world.lend loans }
  | none =>
    { world := w.lend loans
      push := [.call loans .report caught]
      signal := .returned (.flag false) }

section

variable {ctx : Context} {w : World} {op : Op} {source : Source}

theorem World.resolve_driver {name : String} {object : Object}
    (named : w.names.find? name = some object) : w.resolve .driver name = .ok object := by
  simp [resolve, named]

theorem Begun.exec_asks {on token : Arg String} {target : Object} {other : Option Object}
    {name : String} {second : Option String} (driver : ctx.thread = .driver)
    (first : on = .given name) (named : w.names.find? name = some target)
    (second' : token.optional = .ok second)
    (named' : Begun.resolveOptional ctx w second = .ok other)
    (found : Begun.sourceOf w target other = .ok source)
    (free : Begun.checkShared w target = .ok ()) :
    Begun.exec ctx w on token = .ok
      (match source.runNext ctx w with
      | some turn => { turn.above [.executed] with loans := Begun.held target other .share }
      | none =>
        { Begun.reply w (.flag false) with loans := Begun.held target other .share }) := by
  subst first
  have resolved : w.resolve ctx.thread name = .ok target := driver ▸ World.resolve_driver named
  simp only [Begun.exec, Arg.require, second', resolved, named', found, free, bind, Except.bind]
  cases source.runNext ctx w <;> rfl

theorem World.Asks.perform (asks : w.Asks op source) (driver : ctx.thread = .driver)
    (catchAll : Bool) :
    ∃ loans caught, op.perform ctx w catchAll = Op.executes ctx source loans caught w := by
  have accepted : ∃ loans, Begun.ofOp ctx w op.uncaught.2 = .ok
      (match source.runNext ctx w with
      | some turn => { turn.above [.executed] with loans }
      | none => { Begun.reply w (.flag false) with loans }) := by
    induction asks with
    | pool named => exact ⟨_, Begun.exec_asks driver rfl named rfl rfl rfl rfl⟩
    | @token name other p t named named' =>
        have resolved : Begun.resolveOptional ctx w (some other) = .ok (some (.token t)) := by
          simp only [Begun.resolveOptional, driver, World.resolve_driver named']
          rfl
        exact ⟨_, Begun.exec_asks driver rfl named rfl resolved rfl rfl⟩
    | @batch name b named free =>
        refine ⟨_, Begun.exec_asks driver rfl named rfl rfl rfl ?_⟩
        simp only [Begun.checkShared, free, Refusal.unless]
        rfl
    | catching _ ih => exact ih
  obtain ⟨loans, accepted⟩ := accepted
  refine ⟨loans, op.uncaught.1 || catchAll, ?_⟩
  simp only [Op.perform, accepted, Op.executes]
  cases source.runNext ctx w with
  | none => rfl
  | some turn =>
      simp only [Turn.above, List.append_assoc]
      rfl

theorem Frame.Performs.resume {frame frame' : Frame} (performs : frame.Performs op frame')
    (ctx : Context) (w : World) :
    ∃ ctx' catchAll, ctx'.thread = ctx.thread ∧
      frame.resume ctx w .proceed = some ((op.perform ctx' w catchAll).above [frame']) := by
  cases performs with
  | program => exact ⟨{ ctx with topLevel := true }, true, rfl, rfl⟩
  | body => exact ⟨ctx, false, rfl, rfl⟩

end

namespace Machine

variable {m : Machine} {op : Op} {source : Source} {base : List Frame} {turns : Nat}
  {outcome : Signal}

/-- A script begins the operation in the next turn; when it is over, `base` is what is left. -/
def Begins (m : Machine) (op : Op) (base : List Frame) : Prop :=
  m.driver.signal = .proceed ∧ ∃ frame frame' below, m.driver.frames = frame :: below ∧
    frame.Performs op frame' ∧ base = frame' :: below

theorem Begins.step (begins : m.Begins op base) (asks : m.world.Asks op source)
    (driver : m.driver.id = .driver) :
    ∃ ctx loans caught,
      (m.run 1).driver.frames = (Op.executes ctx source loans caught m.world).push ++ base ∧
      (m.run 1).driver.signal = (Op.executes ctx source loans caught m.world).signal ∧
      (m.run 1).others =
        m.others ++ (Op.executes ctx source loans caught m.world).spawn := by
  obtain ⟨proceed, frame, frame', below, top, performs, rfl⟩ := begins
  obtain ⟨ctx, catchAll, thread, resumes⟩ := performs.resume
    { thread := m.driver.id, batches := Frame.batchNames (frame :: below) } m.world
  obtain ⟨loans, caught, performed⟩ := asks.perform (thread.trans driver) catchAll
  rw [performed] at resumes
  have stepped := step_of_resume top (proceed ▸ resumes)
  refine ⟨ctx, loans, caught, ?_⟩
  rw [run_one stepped]
  refine ⟨?_, rfl, rfl⟩
  simp only [Turn.above, List.append_assoc]
  rfl

theorem Solo.exec_idle (solo : m.Solo) (begins : m.Begins op base)
    (asks : m.world.Asks op source) (idle : ¬ m.world.system.HasWork source) :
    m.Comes base 2 (.returned (.flag false)) := by
  have none : m.world.system.take source = none := by
    rw [← Option.not_isSome_iff_eq_none, solo.counted.take_isSome solo.sound.scene.registry]
    exact idle
  obtain ⟨ctx, loans, caught, frames, signal, others⟩ := begins.step asks solo.driver
  simp only [Op.executes, Source.runNext, none, Option.map_none, solo.others, List.append_nil,
    List.singleton_append] at frames signal others
  obtain ⟨back, told, still⟩ := run_one_call frames signal
  rw [← run_add] at back told still
  have first : m.Comes (.call loans .report caught :: base) 1 (.returned (.flag false)) :=
    .one solo.others others frames signal
  exact first.pop (still.trans others) back told

theorem Solo.exec_starts (solo : m.Solo) (begins : m.Begins op base)
    (asks : m.world.Asks op source) (work : m.world.system.HasWork source) :
    ∃ (task : Task) (loans : List Loan) (caught : Bool),
      (m.run 1).driver.frames = task.frames ++ .contain task.id source.receiver ::
        .executed :: .call loans .report caught :: base ∧ (m.run 1).others = [] := by
  have found := (solo.counted.take_isSome solo.sound.scene.registry source).mpr work
  obtain ⟨⟨job, system⟩, taken⟩ := Option.isSome_iff_exists.mp found
  obtain ⟨ctx, loans, caught, frames, _, others⟩ := begins.step asks solo.driver
  cases ran : source.runNext ctx m.world with
  | none =>
      rw [Source.take_of_runNext ran] at taken
      cases taken
  | some turn =>
      obtain ⟨task, system, _, rfl⟩ := Source.runNext_eq_some ran solo.sound.scene.filed
      refine ⟨task, loans, caught, ?_, ?_⟩
      · simpa [Op.executes, ran, Turn.above] using frames
      · simpa [Op.executes, ran, Turn.above, solo.others] using others

theorem exec_replies {loans : List Loan} {caught : Bool} {k : Nat}
    (comes : m.Comes (.executed :: .call loans .report caught :: base) k (.returned .nothing)) :
    m.Comes base (k + 2) (.returned (.flag true)) := by
  have still : (m.run k).others = [] := comes.alone k (Nat.le_refl k)
  obtain ⟨back, told, same⟩ := run_one_executed comes.back comes.outcome
  rw [← run_add] at back told same
  obtain ⟨back', told', same'⟩ := run_one_call back told
  rw [← run_add] at back' told' same'
  have replied := comes.pop (same.trans still) back told
  exact replied.pop (same'.trans (same.trans still)) back' told'

/-- The operation tells whether there was work, if it comes back at all. -/
theorem Solo.exec_tells (solo : m.Solo) (begins : m.Begins op base)
    (asks : m.world.Asks op source) (comes : m.Comes base turns outcome) :
    ∃ told, outcome = .returned (.flag told) ∧
      (told = true ↔ m.world.system.HasWork source) := by
  by_cases work : m.world.system.HasWork source
  · refine ⟨true, ?_, by simp [work]⟩
    obtain ⟨task, loans, caught, frames, others⟩ := solo.exec_starts begins asks work
    have high : base.length < (m.run 1).height := by
      simp only [height, frames, List.length_append, List.length_cons]
      omega
    obtain ⟨rest, rfl⟩ := Nat.exists_eq_add_of_le comes.begun
    have low : ((m.run 1).run rest).height ≤ base.length + 2 + 1 := by
      rw [← run_add, height, show (m.run (1 + rest)).driver.frames = _ from comes.back]
      omega
    have solo' : (m.run 1).Solo := solo.after (comes.alone.le (Nat.le_add_right 1 rest))
    obtain ⟨k, ends, _⟩ := (comes.alone.later (i := 1)).contains frames low
    have replied := exec_replies ends
    exact (comes.unique (replied.after_first solo.others high)).2
  · refine ⟨false, ?_, by simp [work]⟩
    exact (comes.unique (solo.exec_idle begins asks work)).2

theorem Solo.exec_ends (solo : m.Solo) (begins : m.Begins op base)
    (asks : m.world.Asks op source) (alone : ∀ k, (m.run k).others = []) (ends : m.BodiesEnd) :
    ∃ turns outcome, m.Comes base turns outcome := by
  by_cases work : m.world.system.HasWork source
  · obtain ⟨task, loans, caught, frames, others⟩ := solo.exec_starts begins asks work
    have high : base.length < (m.run 1).height := by
      simp only [height, frames, List.length_append, List.length_cons]
      omega
    have solo' : (m.run 1).Solo := solo.after fun k _ => alone k
    obtain ⟨k, comes⟩ := task_ends (others_later alone 1) (ends.later 1) frames
    exact ⟨_, _, (exec_replies comes).after_first solo.others high⟩
  · exact ⟨_, _, solo.exec_idle begins asks work⟩

/-- The count of queued jobs is exact in every pool: it is what the shared queue and the lanes hold.
It is not zero when a job is taken and never exceeds the number of submissions, so it never wraps.
An operation that is asked to run one job tells whether the counts say that there is one. -/
theorem Solo.queued_exact (solo : m.Solo) :
    (∀ p, (m.world.system.pool p).queued =
        (m.world.system.pool p).shared.length +
          ((m.world.system.pool p).lanes.map (·.jobs.length)).sum ∧
      (m.world.system.pool p).queued ≤ m.world.system.submissions) ∧
    (∀ source job s', m.world.system.take source = some (job, s') →
      ∃ p ∈ m.world.system.reach source,
        (s'.pool p).queued + 1 = (m.world.system.pool p).queued ∧
          ∀ q, q ≠ p → s'.pool q = m.world.system.pool q) ∧
    ∀ op source base, m.Begins op base → m.world.Asks op source →
      (∀ turns outcome, m.Comes base turns outcome →
        ∃ told, outcome = .returned (.flag told) ∧
          (told = true ↔ m.world.system.HasWork source)) ∧
      ((∀ k, (m.run k).others = []) → m.BodiesEnd →
        ∃ turns outcome, m.Comes base turns outcome) := by
  refine ⟨fun p => ⟨solo.counted p, ?_⟩, ?_, ?_⟩
  · exact Nat.le_trans (solo.counted.le_jobs p) solo.counts.bounded
  · exact fun source job s' taken => (solo.counted.take taken).2
  · intro op source base begins asks
    refine ⟨fun turns outcome comes => solo.exec_tells begins asks comes, ?_⟩
    exact fun alone ends => solo.exec_ends begins asks alone ends

/-- A job is queued through a token at another pool than the one that issued the token, and is run
by asking that other pool. -/
def foreign : List Op :=
  [.pool (.given "p") .missing .missing .missing .missing,
    .pool (.given "q") .missing .missing .missing .missing,
    .token (.given "t") (.given "p"),
    .schedule (.given "q") (.given (.own "job" [.panic (.given .unit)])) (.given .forced)
      (.given "t"),
    .exec (.given "q") (.given "t")]

/-- The job is counted where the token was issued, and the pool that is asked finds it there. -/
theorem foreign_runs :
    let asking := (Machine.load [] .plain foreign).run 12
    let base : List Frame := [.program [], .cleanup]
    asking.Solo ∧ (asking.world.system.pool ⟨0⟩).queued = 1 ∧
      (asking.world.system.pool ⟨1⟩).queued = 0 ∧
      (∃ taken p, asking.world.system.take (.lane ⟨1⟩ ⟨0⟩) = some taken ∧
        (taken.2.pool p).queued + 1 = (asking.world.system.pool p).queued) ∧
      asking.BodiesEnd ∧
      asking.Begins (.exec (.given "q") (.given "t")) base ∧
      asking.world.Asks (.exec (.given "q") (.given "t")) (.lane ⟨1⟩ ⟨0⟩) ∧
      asking.world.system.HasWork (.lane ⟨1⟩ ⟨0⟩) ∧
      asking.Comes base 7 (.returned (.flag true)) ∧
      ∃ turns outcome, asking.Comes base turns outcome := by
  intro asking base
  have solo : asking.Solo := (Solo.load [] .plain foreign).run 12 (by decide)
  have begins : asking.Begins (.exec (.given "q") (.given "t")) base :=
    ⟨rfl, _, _, _, rfl, .program, rfl⟩
  have asks : asking.world.Asks (.exec (.given "q") (.given "t")) (.lane ⟨1⟩ ⟨0⟩) :=
    .token rfl rfl
  have alone : ∀ k ≤ 18, (asking.run k).others.isEmpty = true := by decide
  have alone : asking.Alone 18 := fun k below => List.isEmpty_iff.mp (alone k below)
  have inside : ∀ k < 7, 0 < k → base.length < (asking.run k).height := by decide
  have comes : asking.Comes base 7 (.returned (.flag true)) :=
    { begun := by decide
      alone := alone.le (by decide)
      back := rfl
      inside := fun k positive below => inside k below positive
      outcome := rfl }
  have finished : (asking.run 18).driver.frames = [] := List.isEmpty_iff.mp (by decide)
  have ends := bodiesEnd_of_finished finished
  obtain ⟨exact, takes, execs⟩ := Solo.queued_exact solo
  obtain ⟨tells, returns⟩ := execs _ _ _ begins asks
  obtain ⟨told, same, work⟩ := tells _ _ comes
  cases same
  obtain ⟨p, _, left, _⟩ := takes (.lane ⟨1⟩ ⟨0⟩) _ _ rfl
  exact ⟨solo, (exact ⟨0⟩).1, (exact ⟨1⟩).1, ⟨_, p, rfl, left⟩, ends, begins, asks, work.mp rfl,
    comes, returns (alone.forever finished) ends⟩

end Machine

end TaskPool
