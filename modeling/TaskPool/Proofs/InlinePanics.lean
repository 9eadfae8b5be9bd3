import TaskPool.Proofs.Executing
import TaskPool.Proofs.FirstPanic

/-!
# Panics of tasks that run inline

A submission to a batch that does not queue the task runs it before it returns. The batch wraps a
task after its own load check and before the check of the pool, so a panic of the task has two ways
to go. A task that the batch turned away is raw, and the panic comes out of the submission. A task
that only the pool turned away is wrapped already, and the panic stays with the batch: the
submission returns as if nothing had happened.
-/

namespace TaskPool

open TaskPool.System

/-- A task body as work: its label, its operations and the name of the batch that it is for. -/
structure Chore where
  label : String
  ops : List Op
  onBatch : String

namespace Chore

def work (chore : Chore) : Work := .body chore.label chore.ops (some chore.onBatch)

def task (chore : Chore) (job : Job Work) : Task :=
  ⟨job.id, job.batch, chore.label, chore.ops, some chore.onBatch⟩

theorem task_job (chore : Chore) (s : System Work) (entry : Entry) :
    (s.submit entry chore.work).job = (chore.task (s.submit entry chore.work).job).job := by
  have work := submit_work (s := s) entry chore.work
  generalize s.submit entry chore.work = made at work ⊢
  exact congrArg (Job.mk made.job.id made.job.batch) work

end Chore

inductive World.Hands (w : World) (b : BatchId) (admission : Admission) : Chore → Op → Prop where
  | schedule {name label : String} {ops : List Op} {task : TaskSource Op} {via : Arg Via}
      {way : Via} (named : w.names.find? name = some (.batch b))
      (body : Begun.taskBody w task = .ok (label, ops)) (asked : via.orDefault .plain = .ok way)
      (entry : Begun.entryPoint w (.batch b) way none = .ok (.batch b admission))
      (free : w.isAwaited b = false) :
      Hands w b admission ⟨label, ops, name⟩ (.schedule (.given name) (.given task) via .missing)
  | catching {chore op} (hands : Hands w b admission chore op) :
      Hands w b admission chore (.catching op)

/-- A panic goes on down the stack, or is told to a script that catches it. -/
def Signal.IsPanic (payload : Payload) : Signal → Prop
  | .raised other | .returned (.panicked other) => other = payload
  | _ => False

theorem Barrier.settle_keeps (payload : Payload) (barrier : Barrier) :
    (barrier.settle (some payload)).claimed = true ∧
      (barrier.settle (some payload)).pending =
        if barrier.claimed then barrier.pending else some (Failure.ofPayload payload) := by
  cases claimed : barrier.claimed <;>
    simp [settle, keepFirst, claim, fill, retire, claimed]

section

variable {s : System Work} {b : BatchId} {admission : Admission} {work : Work}

theorem System.offer_runs {p : PoolId} {job : Job Work}
    (now : (s.offer p job).route.runsNow = true) : (s.pool p).isSaturated = true := by
  unfold offer at now
  split at now
  · assumption
  · cases now

theorem System.offerVia_runs {receiver : PoolId} {t : TokenId} {job : Job Work}
    (now : (s.offerVia receiver t job).route.runsNow = true) :
    (s.pool (s.token t).pool).isSaturated = true := by
  simp only [offerVia] at now
  split at now
  · assumption
  · cases now

/-- A task that is run at once was turned away by the batch, which left it raw, or by the pool, for
which it was wrapped. -/
theorem System.submit_runs (now : (s.submit (.batch b admission) work).route.runsNow = true) :
    (s.isSaturated b = true ∧ (s.submit (.batch b admission) work).job.batch = none) ∨
    (s.isSaturated b = false ∧ (s.pool (s.inletOf (.batch b admission)).1).isSaturated = true ∧
      (s.submit (.batch b admission) work).job.batch = some b) := by
  simp only [submit, submitToBatch] at now ⊢
  split
  · next declines => exact .inl ⟨declines.2, rfl⟩
  · next admits =>
      rw [if_neg admits] at now
      have kind : ({ s with submissions := s.submissions + 1 } : System Work).batch b =
        s.batch b := rfl
      simp only [inletOf, wrap, kind] at now ⊢
      -- only the load check of the pool can turn the task away now
      cases owner : (s.batch b).kind with
      | single t =>
          rw [owner] at now
          cases admission with
          | checked =>
              have room := fun declines => admits ⟨Admission.noConfusion, declines⟩
              refine .inr ⟨Bool.eq_false_iff.mpr room, ?_⟩
              exact ⟨offerVia_runs (s := s.count (some b)) now,
                congrArg Job.batch (offerVia_admits _ _).1⟩
          | ownCheck | forced => cases now
      | multi =>
          rw [owner] at now
          cases admission with
          | checked =>
              have room := fun declines => admits ⟨Admission.noConfusion, declines⟩
              refine .inr ⟨Bool.eq_false_iff.mpr room, ?_⟩
              exact ⟨offer_runs (s := s.count (some b)) now, congrArg Job.batch (offer_admits _).1⟩
          | ownCheck | forced => cases now

end

/-! ## The turn that submits -/

def Chore.submitted (ctx : Context) (b : BatchId) (admission : Admission) (chore : Chore)
    (w : World) : Turn :=
  let made := w.system.submit (.batch b admission) chore.work
  let w := { w with system := made.system }
  let turn : Turn :=
    if made.route.runsNow then made.job.launch ctx w else Turn.reply w .nothing
  turn.after (Event.ofNotices made.notices ++
    [.submitted made.job.id made.job.batch made.route])

theorem World.Hands.perform {ctx : Context} {w : World} {b : BatchId} {admission : Admission}
    {chore : Chore} {op : Op} (hands : w.Hands b admission chore op)
    (driver : ctx.thread = .driver) (catchAll : Bool) :
    ∃ caught, op.perform ctx w catchAll =
      { (chore.submitted ctx b admission w).above [.call [⟨.batch b, .share⟩] .report caught] with
        world := (chore.submitted ctx b admission w).world.lend [⟨.batch b, .share⟩] } := by
  have accepted : Begun.ofOp ctx w op.uncaught.2 = .ok
      { chore.submitted ctx b admission w with loans := [⟨.batch b, .share⟩] } := by
    induction hands with
    | schedule named body asked entry free =>
        have resolved := World.resolve_driver named
        simp only [Op.uncaught, Begun.ofOp, Begun.schedule, Arg.require, Arg.optional, body, asked,
          driver, resolved, Begun.resolveOptional, entry, Begun.checkShared, free, Bind.bind,
          Except.bind]
        rfl
    | catching _ ih => exact ih
  refine ⟨op.uncaught.1 || catchAll, ?_⟩
  simp only [Op.perform, accepted]

theorem Registry.inletOf_batch {s : System Work} {names : Table Object}
    (registry : Registry s names) (b : BatchId) (admission : Admission) :
    (s.inletOf (.batch b admission)).1 = (s.batch b).pool := by
  simp only [inletOf]
  cases kind : (s.batch b).kind with
  | multi => rfl
  | single t => exact (registry.owned b t kind).2.1

namespace Machine

variable {m : Machine} {op : Op} {base below : List Frame} {b : BatchId} {admission : Admission}
  {chore : Chore} {turns : Nat} {payload : Payload}

/-- A task body is on top of the stack, and a panic leaves it after some turns. -/
def Unwinds (m : Machine) (turns : Nat) (payload : Payload) : Prop :=
  ∃ job label next rest onBatch below,
    m.driver.frames = .body job label next rest onBatch :: below ∧
      m.Comes below turns (.raised payload)

theorem Begins.submits (begins : m.Begins op base) (hands : m.world.Hands b admission chore op)
    (driver : m.driver.id = .driver) :
    ∃ caught, (m.run 1).others = m.others ∧ (m.run 1).driver.frames =
      (if (m.world.system.submit (.batch b admission) chore.work).route.runsNow then
          (chore.task (m.world.system.submit (.batch b admission) chore.work).job).frames
        else []) ++ .call [⟨.batch b, .share⟩] .report caught :: base := by
  obtain ⟨proceed, frame, frame', below, top, performs, rfl⟩ := begins
  obtain ⟨ctx, catchAll, thread, resumes⟩ := performs.resume
    { thread := m.driver.id, batches := Frame.batchNames (frame :: below) } m.world
  obtain ⟨caught, performed⟩ := hands.perform (thread.trans driver) catchAll
  rw [performed] at resumes
  have stepped := step_of_resume top (proceed ▸ resumes)
  refine ⟨caught, ?_⟩
  rw [run_one stepped]
  have job := chore.task_job m.world.system (.batch b admission)
  revert job
  simp only [Chore.submitted]
  generalize m.world.system.submit (.batch b admission) chore.work = made
  intro job
  have launched := fun w => (congrArg (Job.launch ctx · w) job).trans (Task.launch_job _ ctx w)
  cases made.route.runsNow with
  | true =>
      simp only [if_true, launched]
      refine ⟨List.append_nil _, ?_⟩
      simp only [Turn.above, Turn.after, List.append_assoc]
      rfl
  | false => exact ⟨List.append_nil _, rfl⟩

/-- A panic of a raw task comes out of the operation that started it. -/
theorem Comes.leaves {loans : List Loan} {caught : Bool}
    (comes : m.Comes (.call loans .report caught :: base) turns (.raised payload)) :
    (∃ outcome : Signal, outcome.IsPanic payload ∧ m.Comes base (turns + 1) outcome) ∧
      (m.run (turns + 1)).world.system = (m.run turns).world.system := by
  obtain ⟨back, told, still, world, _⟩ := run_one_leave comes.back
  rw [comes.outcome] at told
  rw [← run_add] at back told still world
  refine ⟨⟨_, ?_, comes.pop (still.trans (comes.alone turns (Nat.le_refl turns))) back told⟩, ?_⟩
  · cases caught <;> rfl
  · rw [world]
    rfl

theorem Solo.held_known (solo : m.Solo) {loans : List Loan} {onFailure : OnFailure} {caught : Bool}
    {hold : Hold} (member : .call loans onFailure caught ∈ m.driver.frames)
    (held : ⟨.batch b, hold⟩ ∈ loans) : b.index < m.world.system.batches.length := by
  have sound := solo.sound.scene
  have live := (Scene.held_nameable sound.registry sound.custody member _ held).2
  exact batch_known (Stage.opened live)

/-- A panic of a wrapped task goes no further than its batch. -/
theorem Solo.settles (solo : m.Solo) {job : JobId} {loans : List Loan} {caught : Bool} {hold : Hold}
    (comes : m.Comes (.settle job b :: .call loans .report caught :: base) turns (.raised payload))
    (held : ⟨.batch b, hold⟩ ∈ loans) :
    m.Comes base (turns + 2) (.returned .nothing) ∧
      ((m.run (turns + 2)).world.system.batch b).barrier =
        ((m.run turns).world.system.batch b).barrier.settle (some payload) := by
  obtain ⟨back, told, still⟩ := run_one_settle comes.back
  have settled : ((m.run turns).run 1).world.system =
      (m.run turns).world.system.modifyBatch b (·.mapBarrier (·.settle (some payload))) := by
    rw [run_one (step_of_resume comes.back rfl)]
    simp only [Frame.resumeSettle, comes.outcome, settle_system, Turn.reply]
  rw [← run_add] at back told still settled
  have up := comes.pop (still.trans (comes.alone turns (Nat.le_refl turns))) back told
  obtain ⟨back', told', still', world, _⟩ := run_one_leave back
  rw [← run_add] at back' told' still' world
  rw [told] at told'
  refine ⟨up.pop (still'.trans (up.alone _ (Nat.le_refl _))) back' told', ?_⟩
  have member : .call loans .report caught ∈ (m.run turns).driver.frames := by
    rw [comes.back]
    exact List.mem_cons_of_mem _ List.mem_cons_self
  rw [world, World.giveBack, settled]
  exact barrier_mapBarrier _ ((solo.after comes.alone).held_known member held)

/-- A task of a batch that runs before its submission returns, and that a panic leaves. If the batch
was saturated, the panic comes out of the submission and the batch keeps what it kept. If only its
pool was saturated, the submission returns as if nothing had happened, and the panic is what the
next wait on the batch tells unless an earlier one is pending. -/
theorem Solo.inline_panics (solo : m.Solo) (begins : m.Begins op base)
    (hands : m.world.Hands b admission chore op) (unwinds : (m.run 1).Unwinds turns payload) :
    (m.world.system.isSaturated b = true →
      (∃ outcome : Signal, outcome.IsPanic payload ∧ m.Comes base (1 + (turns + 1)) outcome) ∧
        (m.run (1 + (turns + 1))).world.system = (m.run (1 + turns)).world.system) ∧
    (m.world.system.isSaturated b = false →
      (m.world.system.poolOf b).isSaturated = true ∧
        m.Comes base (1 + (turns + 2)) (.returned .nothing) ∧
        ((m.run (1 + (turns + 2))).world.system.batch b).barrier =
          ((m.run (1 + turns)).world.system.batch b).barrier.settle (some payload) ∧
        (((m.run (1 + turns)).world.system.batch b).barrier.claimed = false →
          ((m.run (1 + (turns + 2))).world.system.deliver b).1 =
            some (Failure.ofPayload payload))) := by
  obtain ⟨caught, others, frames⟩ := begins.submits hands solo.driver
  obtain ⟨job, label, next, rest, onBatch, below, top, comes⟩ := unwinds
  cases now : (m.world.system.submit (.batch b admission) chore.work).route.runsNow with
  | false =>
      rw [now] at frames
      cases top.symm.trans frames
  | true =>
      simp only [now, if_true, Task.frames] at frames
      obtain ⟨_, rfl⟩ := List.cons.inj (top.symm.trans frames)
      have high : base.length < (m.run 1).height := by
        simp only [height, frames, List.length_append, List.length_cons]
        omega
      rcases submit_runs now with ⟨saturated, raw⟩ | ⟨unsaturated, full, wrapped⟩
      · refine ⟨fun _ => ?_, fun wrong => Bool.noConfusion (saturated.symm.trans wrong)⟩
        simp only [Chore.task, raw] at comes
        obtain ⟨⟨outcome, panics, out⟩, same⟩ := comes.leaves
        rw [← run_add, ← run_add] at same
        exact ⟨⟨outcome, panics, out.after_first solo.others high⟩, same⟩
      · refine ⟨fun wrong => Bool.noConfusion (unsaturated.symm.trans wrong), fun _ => ?_⟩
        simp only [Chore.task, wrapped] at comes
        have inlet : (m.world.system.inletOf (.batch b admission)).1 =
            (m.world.system.batch b).pool :=
          solo.sound.scene.registry.inletOf_batch b admission
        have solo' : (m.run 1).Solo :=
          solo.after (.one solo.others (comes.alone 0 (Nat.zero_le turns)))
        obtain ⟨out, settled⟩ := solo'.settles comes List.mem_cons_self
        rw [← run_add, ← run_add] at settled
        rw [inlet] at full
        refine ⟨full, out.after_first solo.others high, settled, fun unclaimed => ?_⟩
        rw [deliver_failure, settled, (Barrier.settle_keeps payload _).2, unclaimed]
        rfl

theorem unwinds_of_run {i : Nat} {job : JobId} {label : String} {next : Nat} {rest : List Op}
    {onBatch : Option String} (begun : 0 < turns)
    (top : (m.run i).driver.frames = .body job label next rest onBatch :: below)
    (alone : ∀ k ≤ i + turns, (m.run k).others.isEmpty = true)
    (back : (m.run (i + turns)).driver.frames = below)
    (inside : ∀ k < i + turns, i < k → below.length < (m.run k).height)
    (told : (m.run (i + turns)).driver.signal = .raised payload) : (m.run i).Unwinds turns payload :=
  ⟨_, _, _, _, _, _, top, comes_of_run begun alone back inside told⟩

/-- A task waits in the pool or in the batch, which has a limit of zero, and a task that panics is
about to be submitted to the batch. -/
def faulty (crowded : String) : Machine :=
  (Machine.load [] .plain [.pool (.given "p") (.given 0) .missing .missing .missing,
    .batch (.given "s") (.given "p") .missing (.given true),
    .schedule (.given crowded) (.given (.own "other" [])) (.given .forced) .missing,
    .schedule (.given "s") (.given (.own "bad" [.panic (.given (.fixedText "boom"))])) .missing
      .missing,
    .wait (.given "s") .report false]).run 9

/-- With a crowded batch the panic is told by the submission, with a crowded pool by the wait. -/
theorem faulty_inline_panics :
    let payload := Payload.fixedText "boom"
    let bad : Chore := ⟨"bad", [.panic (.given payload)], "s"⟩
    let op : Op := .schedule (.given "s") (.given (.own "bad" bad.ops)) .missing .missing
    let base : List Frame := [.program [.wait (.given "s") .report false], .cleanup]
    ((faulty "s").Solo ∧ (faulty "s").Begins op base ∧ (faulty "s").world.Hands ⟨0⟩ .checked bad op ∧
      ((faulty "s").run 1).Unwinds 3 payload ∧
      (faulty "s").world.system.isSaturated ⟨0⟩ = true ∧
      ∃ outcome : Signal, outcome.IsPanic payload ∧ (faulty "s").Comes base 5 outcome) ∧
    (faulty "p").Solo ∧ (faulty "p").Begins op base ∧ (faulty "p").world.Hands ⟨0⟩ .checked bad op ∧
      ((faulty "p").run 1).Unwinds 3 payload ∧
      (faulty "p").world.system.isSaturated ⟨0⟩ = false ∧
      (faulty "p").Comes base 6 (.returned .nothing) ∧
      (((faulty "p").run 6).world.system.deliver ⟨0⟩).1 = some (Failure.ofPayload payload) := by
  intro payload bad op base
  have solo : (faulty "s").Solo := (Solo.load [] .plain _).run 9 (by decide)
  have solo' : (faulty "p").Solo := (Solo.load [] .plain _).run 9 (by decide)
  have top : (faulty "s").driver.frames =
    .program (op :: [.wait (.given "s") .report false]) :: [.cleanup] := rfl
  have top' : (faulty "p").driver.frames =
    .program (op :: [.wait (.given "s") .report false]) :: [.cleanup] := rfl
  have begins : (faulty "s").Begins op base := ⟨rfl, _, _, _, top, .program, rfl⟩
  have begins' : (faulty "p").Begins op base := ⟨rfl, _, _, _, top', .program, rfl⟩
  have named : (faulty "s").world.names.find? "s" = some (.batch ⟨0⟩) := rfl
  have named' : (faulty "p").world.names.find? "s" = some (.batch ⟨0⟩) := rfl
  have hands : (faulty "s").world.Hands ⟨0⟩ .checked bad op :=
    .schedule named rfl rfl rfl (by decide)
  have hands' : (faulty "p").world.Hands ⟨0⟩ .checked bad op :=
    .schedule named' rfl rfl rfl (by decide)
  have left : ((faulty "s").run 1).Unwinds 3 payload :=
    unwinds_of_run (by decide) rfl (by decide) rfl (by decide) rfl
  have left' : ((faulty "p").run 1).Unwinds 3 payload :=
    unwinds_of_run (by decide) rfl (by decide) rfl (by decide) rfl
  obtain ⟨outcome, _⟩ := (Solo.inline_panics solo begins hands left).1 (by decide)
  obtain ⟨_, returns, _, told⟩ := (Solo.inline_panics solo' begins' hands' left').2 (by decide)
  have told := told (by decide)
  simp only [Nat.reduceAdd] at outcome returns told
  exact ⟨⟨solo, begins, hands, left, by decide, outcome⟩, solo', begins', hands', left', by decide,
    returns, told⟩

/-- With a crowded pool the panic does not come out of the submission, and the wait tells it. -/
theorem crowded_pool_keeps_panic :
    let payload := Payload.fixedText "boom"
    let bad : Chore := ⟨"bad", [.panic (.given payload)], "s"⟩
    let op : Op := .schedule (.given "s") (.given (.own "bad" bad.ops)) .missing .missing
    let base : List Frame := [.program [.wait (.given "s") .report false], .cleanup]
    (faulty "p").Solo ∧ (faulty "p").Begins op base ∧
      (faulty "p").world.Hands ⟨0⟩ .checked bad op ∧ ((faulty "p").run 1).Unwinds 3 payload ∧
      (¬ ∃ turns outcome, (faulty "p").Comes base turns outcome ∧ outcome.IsPanic payload) ∧
      ((faulty "p").run 8).Returns ((faulty "p").run 9) ⟨0⟩ .wait
        (.failed (Failure.ofPayload payload)) := by
  intro payload bad op base
  have solo : (faulty "p").Solo := (Solo.load [] .plain _).run 9 (by decide)
  have top : (faulty "p").driver.frames =
    .program (op :: [.wait (.given "s") .report false]) :: [.cleanup] := rfl
  have begins : (faulty "p").Begins op base := ⟨rfl, _, _, _, top, .program, rfl⟩
  have named : (faulty "p").world.names.find? "s" = some (.batch ⟨0⟩) := rfl
  have hands : (faulty "p").world.Hands ⟨0⟩ .checked bad op :=
    .schedule named rfl rfl rfl (by decide)
  have left : ((faulty "p").run 1).Unwinds 3 payload :=
    unwinds_of_run (by decide) rfl (by decide) rfl (by decide) rfl
  have returns : (faulty "p").Comes base 6 (.returned .nothing) :=
    comes_of_run (m := faulty "p") (i := 0) (by decide) (by decide) rfl (by decide) rfl
  have told : ((faulty "p").run 9).driver.signal =
    .returned (.failed (Failure.ofPayload payload)) := rfl
  refine ⟨solo, begins, hands, left, ?_, ⟨rfl, rfl, ⟨none, rfl⟩, told⟩⟩
  rintro ⟨turns, outcome, comes, panics⟩
  rw [(comes.unique returns).2] at panics
  exact panics

end Machine

end TaskPool
