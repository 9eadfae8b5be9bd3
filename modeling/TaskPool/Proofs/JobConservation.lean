import TaskPool.Proofs.TaskChanges
import TaskPool.Proofs.TaskStacks

/-!
# No job is lost or run twice

A job that was submitted waits in one queue, or runs, or has run once and is over. The tallies of a
job count where it is and what is on record of it; two equations between them leave only these three
possibilities.
-/

namespace TaskPool

open TaskPool.System

namespace Scene

variable {σ σ' : Scene} {job : JobId}

def waiting (σ : Scene) (job : JobId) : Nat := σ.system.jobs.countP (·.id = job)

def running (σ : Scene) (job : JobId) : Nat := (roles σ.frames).count (.runs job)

/-- How often a step in the life of a job is on record. -/
def times (σ : Scene) (mark : Mark) : Nat := (marks σ.history).count mark

structure Tallied (σ : Scene) : Prop where
  numbered : ∀ job, σ.times (.submits job) = if job.index < σ.system.submissions then 1 else 0
  queued : ∀ job, σ.waiting job + σ.times (.starts job) = σ.times (.submits job)
  lasting : ∀ job, σ.running job + σ.times (.ends job) = σ.times (.starts job)

theorem Tallied.once (tallied : σ.Tallied) (job : JobId) :
    σ.waiting job + σ.running job + σ.times (.ends job) ≤ 1 := by
  have numbered := tallied.numbered job
  have queued := tallied.queued job
  have lasting := tallied.lasting job
  split at numbered <;> omega

/-! ## What the shifts do to the tallies -/

theorem waiting_cons {task : Task} {jobs jobs' : List (Job Work)}
    (perm : jobs.Perm (task.job :: jobs')) :
    jobs.countP (·.id = job) = jobs'.countP (·.id = job) + if task.id = job then 1 else 0 := by
  rw [perm.countP_eq, List.countP_cons]
  by_cases same : task.id = job <;> simp [same]

theorem running_task (task : Task) :
    task.roles.count (.runs job) = if task.id = job then 1 else 0 := by
  cases wrapped : task.batch <;> simp [Task.roles, wrapped, List.count_cons]

theorem numbered_next {id : JobId} {count : Nat} (fresh : id = ⟨count⟩) (job : JobId) :
    (if job.index < count then 1 else 0) + (if id = job then 1 else 0) =
      if job.index < count + 1 then 1 else 0 := by
  subst fresh
  by_cases same : (⟨count⟩ : JobId) = job
  · subst same
    simp
  · have other : job.index ≠ count := fun index => same (JobId.ext index.symm)
    simp only [same, if_false, Nat.add_zero]
    split <;> split <;> omega

/-- Each tally of a job changes by what the shift does with this job. -/
theorem Shift.tallied (shift : σ.Shift σ') (tallied : σ.Tallied) : σ'.Tallied := by
  have numbered := tallied.numbered
  have queued := tallied.queued
  have lasting := tallied.lasting
  simp only [waiting, running, times] at numbered queued lasting
  cases shift with
  | rests steady roles record =>
      constructor <;> intro job <;>
        simp only [waiting, running, times, record, roles, steady.count, steady.jobs.countP_eq]
      · exact numbered job
      · exact queued job
      · exact lasting job
  | queues fresh jobs owed count roles record =>
      constructor <;> intro job <;>
        simp only [waiting, running, times, record, roles, count, waiting_cons jobs,
          List.count_append, List.count_singleton, beq_iff_eq, Mark.submits.injEq, reduceCtorEq,
          if_false, Nat.add_zero]
      · rw [numbered, numbered_next fresh]
      · rw [← queued]
        omega
      · exact lasting job
  | runs fresh jobs owed count roles record =>
      constructor <;> intro job <;>
        simp only [waiting, running, times, record, roles, count, jobs.countP_eq, running_task,
          List.count_append, List.count_cons, List.count_nil, beq_iff_eq, Mark.submits.injEq,
          Mark.starts.injEq, reduceCtorEq, if_false, Nat.add_zero, Nat.zero_add]
      · rw [numbered, numbered_next fresh]
      · rw [← queued]
        omega
      · rw [← lasting]
        omega
  | starts jobs owed count roles record =>
      simp only [waiting_cons jobs] at queued
      constructor <;> intro job <;>
        simp only [waiting, running, times, record, roles, count, running_task,
          List.count_append, List.count_singleton, beq_iff_eq, Mark.starts.injEq, reduceCtorEq,
          if_false, Nat.add_zero]
      · exact numbered job
      · rw [← queued]
        omega
      · rw [← lasting]
        omega
  | ends system roles record =>
      simp only [roles, List.count_cons, beq_iff_eq, Role.runs.injEq] at lasting
      constructor <;> intro job <;>
        simp only [waiting, running, times, record, system, List.count_append,
          List.count_singleton, beq_iff_eq, Mark.ends.injEq, reduceCtorEq, if_false, Nat.add_zero]
      · exact numbered job
      · exact queued job
      · rw [← lasting]
        omega
  | settles jobs owed count roles record =>
      simp only [roles, List.count_cons, beq_iff_eq, reduceCtorEq, if_false, Nat.add_zero]
        at lasting
      constructor <;> intro job <;>
        simp only [waiting, running, times, record, count, jobs.countP_eq]
      · exact numbered job
      · exact queued job
      · exact lasting job

theorem Tallied.load (bodies : Table (List Op)) (host : Host) (ops : List Op) :
    (Machine.load bodies host ops).scene.Tallied where
  numbered _ := by simp [times, marks, Machine.scene, Machine.history, Machine.load]
  queued _ := rfl
  lasting _ := rfl

/-! ## One submission, one event -/

theorem eq_of_filterMap_count {α β : Type} [DecidableEq β] {f : α → Option β} {x : β} {a b : α}
    {list : List α} (once : (list.filterMap f).count x ≤ 1) (left : a ∈ list) (right : b ∈ list)
    (fa : f a = some x) (fb : f b = some x) : a = b := by
  have counted : ∀ {c : α} {tail : List α}, c ∈ tail → f c = some x →
      0 < (tail.filterMap f).count x :=
    fun member fc => List.count_pos_iff.mpr (List.mem_filterMap.mpr ⟨_, member, fc⟩)
  induction list with
  | nil => cases left
  | cons c tail ih =>
      rcases List.mem_cons.mp left with rfl | left' <;>
        rcases List.mem_cons.mp right with rfl | right'
      · rfl
      · rw [List.filterMap_cons_some fa, List.count_cons_self] at once
        have := counted right' fb
        omega
      · rw [List.filterMap_cons_some fb, List.count_cons_self] at once
        have := counted left' fa
        omega
      · refine ih (Nat.le_trans ?_ once) left' right'
        exact List.Sublist.count_le x ((List.sublist_cons_self c tail).filterMap f)

theorem Tallied.submitted_once (tallied : σ.Tallied) {batch batch' : Option BatchId}
    {route route' : Route} (one : .submitted job batch route ∈ σ.history)
    (other : .submitted job batch' route' ∈ σ.history) : batch = batch' ∧ route = route' := by
  have once : σ.times (.submits job) ≤ 1 := by
    rw [tallied.numbered]
    split <;> omega
  have same := eq_of_filterMap_count once one other rfl rfl
  cases same
  exact ⟨rfl, rfl⟩

theorem Tallied.submitted (tallied : σ.Tallied) {batch : Option BatchId} {route : Route}
    (logged : .submitted job batch route ∈ σ.history) : σ.times (.submits job) = 1 := by
  have positive : 0 < σ.times (.submits job) :=
    List.count_pos_iff.mpr (List.mem_filterMap.mpr ⟨_, logged, rfl⟩)
  have numbered := tallied.numbered job
  split at numbered <;> omega

/-! ## The fates of a job -/

/-- The job waits once in all, in the shared queue of the pool or in the lane of one of its open
tokens, and was not started. -/
structure Waits (σ : Scene) (job : JobId) (p : PoolId) : Prop where
  there : ∃ inlet, (∃ queued ∈ (σ.system.pool p).queue inlet, queued.id = job) ∧
    ∀ t, inlet = .lane t → t ∈ σ.system.openTokens p
  once : σ.waiting job = 1
  still : σ.running job = 0
  unstarted : σ.times (.starts job) = 0
  unended : σ.times (.ends job) = 0

/-- The job is being carried out on the stack, for the first time. -/
structure Runs (σ : Scene) (job : JobId) : Prop where
  taken : σ.waiting job = 0
  once : σ.running job = 1
  started : σ.times (.starts job) = 1
  unended : σ.times (.ends job) = 0

/-- The job was carried out once; its body ended, or a panic left it. -/
structure IsOver (σ : Scene) (job : JobId) : Prop where
  taken : σ.waiting job = 0
  still : σ.running job = 0
  started : σ.times (.starts job) = 1
  ended : σ.times (.ends job) = 1

/-- What may have become of a job that was submitted. -/
inductive Fate where
  | waits
  | runs
  | finished
  deriving DecidableEq

/-- A job can wait only in the pool that queued it. -/
def Meets (σ : Scene) (job : JobId) (route : Route) : Fate → Prop
  | .waits => ∃ p inlet, route = .queued p inlet ∧ σ.Waits job p
  | .runs => σ.Runs job
  | .finished => σ.IsOver job

/-- The pool that accepted a job: the one that queued it or had it run at once, or the one of the
batch that had it run at once. -/
def acceptor (σ : Scene) : Route → PoolId
  | .queued p _ | .inlineByPool p => p
  | .inlineByBatch b => (σ.system.batch b).pool

theorem waits_of_waiting (sound : σ.Sound) (tallied : σ.Tallied) {batch : Option BatchId}
    {route : Route} (logged : .submitted job batch route ∈ σ.history)
    (waits : 0 < σ.waiting job) :
    ∃ p inlet queued, queued ∈ (σ.system.pool p).queue inlet ∧ queued ∈ (σ.system.pool p).contents ∧
      queued.id = job ∧ queued.batch = batch ∧ (∃ inlet, route = .queued p inlet) ∧
      ∀ t, inlet = .lane t → t ∈ σ.system.openTokens p := by
  obtain ⟨queued, member, same⟩ := List.countP_pos_iff.mp waits
  simp only [decide_eq_true_eq] at same
  subst same
  obtain ⟨p, inside⟩ := System.mem_pool_of_mem_jobs member
  obtain ⟨inlet, there, lanes, filing⟩ := (sound.filed p).of_mem inside
  obtain ⟨inlet', logged'⟩ := filing.logged
  obtain ⟨batch', route'⟩ := tallied.submitted_once logged' logged
  exact ⟨p, inlet, queued, there, inside, rfl, batch', ⟨inlet', route'.symm⟩,
    fun t lane => sound.registry.lanes p ▸ lanes t lane⟩

theorem guard_of_running (guarded : Guarded σ.system σ.history σ.frames)
    (runs : 0 < σ.running job) :
    ∃ above frame below, σ.frames = above ++ frame :: below ∧ frame.role = some (.runs job) ∧
      Guard σ.system σ.history job below := by
  obtain ⟨frame, member, role⟩ := List.mem_filterMap.mp (List.count_pos_iff.mp runs)
  cases frame with
  | body =>
      cases role
      obtain ⟨above, below, split, guard⟩ := guarded.of_mem member
      exact ⟨above, _, below, split, rfl, guard⟩
  | _ => cases role

/-- Three tallies leave three fates. -/
theorem fate_of_tallied (sound : σ.Sound) (tallied : σ.Tallied) {batch : Option BatchId}
    {route : Route} (logged : .submitted job batch route ∈ σ.history) :
    ∃! fate, σ.Meets job route fate := by
  have submitted := tallied.submitted logged
  have queued := tallied.queued job
  have lasting := tallied.lasting job
  rcases Nat.eq_zero_or_pos (σ.waiting job) with taken | waits
  · rcases Nat.eq_zero_or_pos (σ.running job) with still | runs
    · refine ⟨.finished, ⟨taken, still, by omega, by omega⟩, ?_⟩
      rintro (_ | _ | _) meets
      · obtain ⟨_, _, _, waits⟩ := meets
        have := waits.once
        omega
      · have := meets.once
        omega
      · rfl
    · refine ⟨.runs, ⟨taken, by omega, by omega, by omega⟩, ?_⟩
      rintro (_ | _ | _) meets
      · obtain ⟨_, _, _, waits⟩ := meets
        have := waits.once
        omega
      · rfl
      · have := meets.still
        omega
  · obtain ⟨p, inlet, queued', there, _, same, _, ⟨inlet', route'⟩, opened⟩ :=
      waits_of_waiting sound tallied logged waits
    refine ⟨.waits, ⟨p, inlet', route', ⟨inlet, ⟨queued', there, same⟩, opened⟩,
      by omega, by omega, by omega, by omega⟩, ?_⟩
    rintro (_ | _ | _) meets
    · rfl
    · have := meets.taken
      omega
    · have := meets.taken
      omega

/-- While a job runs, the pool that accepted it is not closed. -/
theorem acceptor_open (sound : σ.Sound) (tallied : σ.Tallied)
    (guarded : Guarded σ.system σ.history σ.frames) {batch : Option BatchId} {route : Route}
    (logged : .submitted job batch route ∈ σ.history) (runs : 0 < σ.running job) :
    (σ.system.pool (σ.acceptor route)).stage ≠ .closed := by
  obtain ⟨above, body, _, split, _, guard⟩ := guard_of_running guarded runs
  obtain @⟨batch', route', runner, rest, logged', _, kept, shared⟩ := guard
  obtain ⟨rfl, rfl⟩ := tallied.submitted_once logged' logged
  have inside : ∀ frame ∈ runner :: rest, frame ∈ σ.frames := by
    intro frame member
    rw [split]
    exact List.mem_append_right _ (List.mem_cons_of_mem _ (List.mem_append_right _ member))
  cases route' with
  | queued p | inlineByPool p =>
      obtain ⟨frame, member, keeps⟩ := kept p rfl
      exact sound.keeps (inside frame member) keeps
  | inlineByBatch b =>
      obtain ⟨known, frame, member, shares⟩ := shared b rfl
      cases frame with
      | call =>
          apply sound.keeps (inside _ member) (p := (σ.system.batch b).pool)
          exact ⟨_, shares, known, rfl⟩
      | _ => cases shares

end Scene

namespace Machine

variable {m : Machine}

theorem Solo.tallied (solo : m.Solo) : m.scene.Tallied :=
  solo.invariant Scene.Tallied.load fun sound tallied moves => (moves.shift sound).tallied tallied

theorem Solo.guarded (solo : m.Solo) : Guarded m.scene.system m.scene.history m.scene.frames :=
by
  let holds (σ : Scene) : Prop := Guarded σ.system σ.history σ.frames
  have start : ∀ bodies host ops, holds (Machine.load bodies host ops).scene :=
    fun _ _ _ => trivial
  exact solo.invariant start fun sound guarded moves => moves.guarded sound guarded

/-- No job is lost or run twice. A job that was submitted was submitted once, and it either waits
once in one queue of the pool that queued it, or runs for the first time, or has run once. When the
pool that accepted it is closed, it has run. -/
theorem Solo.conservation (solo : m.Solo) {job : JobId} {batch : Option BatchId} {route : Route}
    (logged : .submitted job batch route ∈ m.history) :
    m.scene.times (.submits job) = 1 ∧ (∃! fate, m.scene.Meets job route fate) ∧
      ((m.world.system.pool (m.scene.acceptor route)).stage = .closed →
        m.scene.Meets job route .finished) := by
  have sound := solo.sound.scene
  have tallied := solo.tallied
  have fates := Scene.fate_of_tallied sound tallied logged
  refine ⟨tallied.submitted logged, fates, fun closed => ?_⟩
  obtain ⟨fate, meets, _⟩ := fates
  cases fate with
  | waits =>
      obtain ⟨p, _, rfl, waits⟩ := meets
      obtain ⟨q, _, queued, _, inside, _, _, ⟨_, same⟩, _⟩ :=
        Scene.waits_of_waiting sound tallied logged
          (Nat.lt_of_lt_of_eq Nat.one_pos waits.once.symm)
      cases same
      have empty : (m.scene.system.pool p).contents = [] := sound.registry.drained p closed
      rw [empty] at inside
      cases inside
  | runs =>
      exact absurd closed (Scene.acceptor_open sound tallied solo.guarded logged
        (Nat.lt_of_lt_of_eq Nat.one_pos meets.once.symm))
  | finished => exact meets

/-- A pool with a task that submits another one to a batch and then panics, both left to the
clean-up. -/
def leftovers : List Op :=
  [.pool (.given "p") .missing .missing .missing .missing,
    .batch (.given "s") (.given "p") .missing (.given true),
    .schedule (.given "p") (.given (.own "outer"
      [.schedule (.given "s") (.given (.own "inner" [])) (.given .forced) .missing,
        .panic (.given .unit)])) (.given .forced) .missing,
    .exec (.given "p") .missing]

/-- The inner task has run when the clean-up has closed the pool. -/
theorem inner_leftover_runs :
    let final := (Machine.load [] .plain leftovers).run 33
    final.Solo ∧ .submitted ⟨1⟩ (some ⟨0⟩) (.queued ⟨0⟩ (.lane ⟨0⟩)) ∈ final.history ∧
      (final.world.system.pool ⟨0⟩).stage = .closed ∧
      final.scene.Meets ⟨1⟩ (.queued ⟨0⟩ (.lane ⟨0⟩)) .finished := by
  intro final
  have solo : final.Solo := (Solo.load [] .plain leftovers).run 33 (by decide)
  have logged : .submitted ⟨1⟩ (some ⟨0⟩) (.queued ⟨0⟩ (.lane ⟨0⟩)) ∈ final.history :=
    List.mem_of_getElem? (i := 8) rfl
  have closed : (final.world.system.pool ⟨0⟩).stage = .closed := rfl
  exact ⟨solo, logged, closed, (Solo.conservation solo logged).2.2 closed⟩

end Machine

end TaskPool
