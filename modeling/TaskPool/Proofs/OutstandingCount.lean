import Mathlib.Data.List.Perm.Basic
import TaskPool.Proofs.TaskChanges

/-!
# The count of outstanding tasks

The count of a batch goes up when a job is wrapped for it, before the job is queued or run, and down
when the task has reported its end. In between the job waits in a queue or its report stands on the
stack, so the count is the number of both.
-/

namespace TaskPool

open TaskPool.System

def Role.owesTo (b : BatchId) : Role → Bool
  | .owes _ other => other = b
  | .runs _ => false

def Batch.inlet (batch : Batch) : Inlet :=
  match batch.kind with
  | .single t => .lane t
  | .multi => .shared

namespace Scene

variable {σ σ' : Scene} {b : BatchId}

/-- Jobs that are wrapped for a batch are outstanding while they wait and while they run. -/
def Balanced (σ : Scene) : Prop :=
  ∀ b, σ.system.outstanding b =
    σ.system.jobs.countP (·.batch = some b) + (roles σ.frames).countP (Role.owesTo b)

theorem wrapped_cons {task : Task} {jobs jobs' : List (Job Work)}
    (perm : jobs.Perm (task.job :: jobs')) :
    jobs.countP (·.batch = some b) =
      jobs'.countP (·.batch = some b) + if task.batch = some b then 1 else 0 := by
  rw [perm.countP_eq, List.countP_cons]
  by_cases same : task.batch = some b <;> simp [same]

theorem owing_task (task : Task) :
    task.roles.countP (Role.owesTo b) = if task.batch = some b then 1 else 0 := by
  cases wrapped : task.batch <;> simp [Task.roles, wrapped, Role.owesTo, List.countP_cons]

theorem Shift.balanced (shift : σ.Shift σ') (balanced : σ.Balanced) : σ'.Balanced := by
  intro b
  have old := balanced b
  cases shift with
  | rests steady roles =>
      rw [steady.owed, steady.jobs.countP_eq, roles]
      exact old
  | queues fresh jobs owed count roles =>
      rw [owed, wrapped_cons jobs, roles]
      omega
  | runs fresh jobs owed count roles =>
      rw [owed, jobs.countP_eq, roles, List.countP_append, owing_task]
      omega
  | starts jobs owed count roles =>
      rw [wrapped_cons jobs] at old
      rw [owed, roles, List.countP_append, owing_task]
      omega
  | ends system roles =>
      rw [roles, List.countP_cons] at old
      rw [system]
      simpa [Role.owesTo] using old
  | settles jobs owed count roles =>
      rw [roles, List.countP_cons] at old
      simp only [Role.owesTo, decide_eq_true_eq] at old
      rw [owed, jobs.countP_eq]
      omega

theorem Balanced.load (bodies : Table (List Op)) (host : Host) (ops : List Op) :
    (Machine.load bodies host ops).scene.Balanced :=
  fun _ => rfl

/-! ## One batch -/

/-- All jobs that are wrapped for a batch wait in the pool of the batch. -/
theorem wrapped_home (filed : Filed σ.system σ.history) :
    σ.system.jobs.countP (·.batch = some b) =
      (σ.system.poolOf b).contents.countP (·.batch = some b) := by
  have home : ∀ {p : PoolId} {job : Job Work}, job ∈ (σ.system.pool p).contents →
      job.batch = some b → (σ.system.batch b).pool = p := by
    intro p job member wrapped
    obtain ⟨_, _, _, filing⟩ := (filed p).of_mem member
    exact (filing.home b wrapped).2
  have absent : ∀ jobs : List (Job Work), (∀ job ∈ jobs, ∃ p, job ∈ (σ.system.pool p).contents ∧
      (σ.system.batch b).pool ≠ p) → jobs.countP (·.batch = some b) = 0 := by
    intro jobs away
    rw [List.countP_eq_zero]
    intro job member wrapped
    obtain ⟨p, inside, other⟩ := away job member
    exact other (home inside (of_decide_eq_true wrapped))
  by_cases known : (σ.system.batch b).pool.index < σ.system.pools.length
  · have split := (List.getElem_cons_eraseIdx_perm known).symm.flatMap_right
      (fun pool : Pool Work => pool.contents)
    have here : σ.system.pools[(σ.system.batch b).pool.index] = σ.system.poolOf b := by
      simp [poolOf, System.pool, List.getD_eq_getElem?_getD, known]
    rw [List.flatMap_cons, here] at split
    rw [jobs, split.countP_eq, List.countP_append, Nat.add_eq_left]
    apply absent
    intro job member
    obtain ⟨pool, inside, member⟩ := List.mem_flatMap.mp member
    obtain ⟨i, below, other, rfl⟩ := List.mem_eraseIdx_iff_getElem.mp inside
    refine ⟨⟨i⟩, ?_, fun same => other (congrArg PoolId.index same).symm⟩
    simpa [System.pool, List.getD_eq_getElem?_getD, below] using member
  · have unknown := Nat.le_of_not_lt known
    have none : (σ.system.poolOf b).contents = [] := by
      rw [poolOf, pool_unknown unknown]
      rfl
    rw [none]
    apply absent
    intro job member
    obtain ⟨p, inside⟩ := System.mem_pool_of_mem_jobs member
    refine ⟨p, inside, ?_⟩
    rintro rfl
    exact known (pool_known_of_mem inside)

/-- What is known of the tasks of a batch that is not closed. -/
structure Accounted (σ : Scene) (b : BatchId) : Prop where
  /-- The outstanding tasks are those that wait in the pool of the batch and those on the stack. -/
  count : σ.system.outstanding b = (σ.system.poolOf b).contents.countP (·.batch = some b) +
    (roles σ.frames).countP (Role.owesTo b)
  /-- They wait at the inlet of the batch only. -/
  inlet : ∀ p inlet, ∀ job ∈ (σ.system.pool p).queue inlet, job.batch = some b →
    p = (σ.system.batch b).pool ∧ inlet = (σ.system.batch b).inlet
  /-- A lane that the batch owns holds nothing else. -/
  own : ∀ t, (σ.system.batch b).kind = .single t →
    ∀ job ∈ (σ.system.poolOf b).queue (.lane t), job.batch = some b
  /-- When a task reports its end, there is something to count down. -/
  counted : ∀ job, .settle job b ∈ σ.frames → 0 < σ.system.outstanding b

theorem owing_of_settle {frames : List Frame} {job : JobId} (member : .settle job b ∈ frames) :
    0 < (roles frames).countP (Role.owesTo b) := by
  refine List.countP_pos_iff.mpr ⟨.owes job b, ?_, by simp [Role.owesTo]⟩
  exact List.mem_filterMap.mpr ⟨_, member, rfl⟩

theorem Balanced.counted (balanced : σ.Balanced) {job : JobId} (member : .settle job b ∈ σ.frames) :
    0 < σ.system.outstanding b := by
  have owing := owing_of_settle member
  rw [balanced b]
  omega

theorem Balanced.awaits (balanced : σ.Balanced) {p : PoolId} {job : Job Work}
    (member : job ∈ (σ.system.pool p).contents) (wrapped : job.batch = some b) :
    0 < σ.system.outstanding b := by
  have waiting : 0 < σ.system.jobs.countP (·.batch = some b) :=
    List.countP_pos_iff.mpr ⟨job, mem_jobs member, decide_eq_true wrapped⟩
  rw [balanced b]
  omega

end Scene

namespace Machine

variable {m next : Machine} {b : BatchId}

theorem Solo.balanced (solo : m.Solo) : m.scene.Balanced :=
  solo.invariant Scene.Balanced.load fun sound balanced moves =>
    (moves.shift sound).balanced balanced

theorem Solo.accounted (solo : m.Solo) (opened : (m.world.system.batch b).stage ≠ .closed) :
    m.scene.Accounted b := by
  have filed := solo.sound.scene.filed
  have balanced := solo.balanced
  refine
    { count := ?_
      inlet := ?_
      own := ?_
      counted := fun job member => balanced.counted member }
  · rw [balanced b, Scene.wrapped_home filed]
  · intro p inlet job member wrapped
    have filing := (filed p).of_queue member
    refine ⟨(filing.home b wrapped).2.symm, ?_⟩
    unfold Batch.inlet
    split
    · next t owns =>
        rcases filing.single b t wrapped owns with lane | ⟨_, closed⟩
        · exact lane
        · exact absurd closed opened
    · next kind => exact filing.multi b wrapped kind
  · intro t owns job member
    exact ((filed _).of_queue member).own b t rfl owns

/-- The count of outstanding tasks is exact: it is the number of wrapped jobs that wait in the
queues of the pool of the batch, where they wait at the inlet of the batch alone, and of wrapped
tasks on the stack. So a count is never taken below zero, and nobody finds the barrier clear from
within a wrapped task. -/
theorem Solo.outstanding_exact (solo : m.Solo)
    (opened : (m.world.system.batch b).stage ≠ .closed) :
    m.scene.Accounted b ∧
      ∀ next reply, m.Returns next b .tryWait reply →
        (∃ job, .settle job b ∈ next.driver.frames) → reply ≠ .flag true := by
  refine ⟨solo.accounted opened, ?_⟩
  rintro next reply returns ⟨job, inside⟩ rfl
  obtain ⟨budget, top⟩ := returns.top
  have moves := returns.moves solo
  obtain ⟨_, ⟨_, _, signal, _⟩ | ⟨wrong, _⟩⟩ := moves.wait_returns top
  · have positive : 0 < m.scene.system.outstanding b :=
      solo.balanced.counted (show _ ∈ m.driver.frames from top ▸ List.mem_cons_of_mem _ inside)
    have told := Signal.returned.inj (signal.symm.trans returns.signal)
    have clear := Barrier.isClear_iff.mp (Goal.answer_flag told).1.symm
    exact absurd clear (Nat.ne_of_gt positive)
  · cases wrong

/-- A task that asks its own batch whether it is done, runs another task of the batch and panics
after that one did. -/
def nested : List Op :=
  [.pool (.given "p") .missing .missing .missing .missing,
    .batch (.given "s") (.given "p") .missing (.given true),
    .schedule (.given "s") (.given (.own "outer"
      [.tryWait (.given "s") (.given 3) .report,
        .schedule (.given "s") (.given (.own "inner" [.panic (.given (.fixedText "inner"))]))
          (.given .forced) .missing,
        .exec (.given "p") .missing,
        .panic (.given (.fixedText "outer"))])) (.given .forced) .missing,
    .exec (.given "p") .missing,
    .wait (.given "s") .report false]

/-- The outer task asks in vain, for it is outstanding itself. -/
theorem nested_not_clear :
    let asking := (Machine.load [] .plain nested).run 11
    let asked := (Machine.load [] .plain nested).run 12
    asking.Solo ∧ (asking.world.system.batch ⟨0⟩).stage ≠ .closed ∧ asking.scene.Accounted ⟨0⟩ ∧
      asking.Returns asked ⟨0⟩ .tryWait (.flag false) ∧
      .settle ⟨0⟩ ⟨0⟩ ∈ asked.driver.frames ∧ Reply.flag false ≠ .flag true := by
  intro asking asked
  have solo : asking.Solo := (Solo.load [] .plain nested).run 11 (by decide)
  have opened : (asking.world.system.batch ⟨0⟩).stage ≠ .closed := by decide
  have returns : asking.Returns asked ⟨0⟩ .tryWait (.flag false) :=
    ⟨rfl, rfl, ⟨_, rfl⟩, rfl⟩
  have inside : .settle ⟨0⟩ ⟨0⟩ ∈ asked.driver.frames := List.mem_of_getElem? (i := 2) rfl
  obtain ⟨accounted, never⟩ := Solo.outstanding_exact solo opened
  exact ⟨solo, opened, accounted, returns, inside, never asked _ returns ⟨_, inside⟩⟩

end Machine

end TaskPool
